import Stevedore.Proofs.Monitoring
import Stevedore.Proofs.Path
import Stevedore.Proofs.Pod.Volumes

/-!
The calls that staging makes. Nothing is asked of a store while a profile is missing. Otherwise the
merged profiles are divided by directory, each bundle is one call, and the first refusal ends them.
-/
namespace Stevedore

namespace SidecarService

/-- A text with a value in the place of every placeholder, as they are found from the left. -/
inductive Expands (value : List Char) : List Char → List Char → Prop where
  | nil : Expands value [] []
  | placeholder {rest text : List Char} (later : Expands value rest text) :
      Expands value (placeholder ++ rest) (value ++ text)
  | other {c : Char} {rest text : List Char} (here : ¬ placeholder <+: c :: rest)
      (later : Expands value rest text) : Expands value (c :: rest) (c :: text)

theorem expands_expand (value : List Char) {fuel : Nat} {cs : List Char}
    (enough : cs.length ≤ fuel) : Expands value cs (expand value fuel cs) := by
  induction fuel generalizing cs with
  | zero =>
    rw [List.length_eq_zero_iff.mp (Nat.le_zero.mp enough)]
    exact .nil
  | succ fuel ih =>
    cases cs with
    | nil => exact .nil
    | cons c rest =>
      rw [List.length_cons, Nat.succ_le_succ_iff] at enough
      rw [expand]
      split
      · next here =>
        obtain ⟨tail, split⟩ := List.isPrefixOf_iff_prefix.mp here
        have left : rest.drop (placeholder.length - 1) = tail := by
          have whole := congrArg (List.drop placeholder.length) split
          rw [List.drop_left] at whole
          exact whole.symm
        have shorter : tail.length ≤ fuel := by
          rw [← left, List.length_drop]
          omega
        rw [left, ← split]
        exact .placeholder (ih shorter)
      · next here =>
        exact .other (fun held => here (List.isPrefixOf_iff_prefix.mpr held)) (ih enough)

theorem expands_profileNamesFor (s : SidecarService) (host : Service) :
    List.Forall₂ (fun name expanded : String =>
      Expands host.serviceType.toList name.toList expanded.toList)
      s.profileNames (s.profileNamesFor host) := by
  rw [profileNamesFor, List.forall₂_map_right_iff]
  refine List.forall₂_same.mpr fun name _ => ?_
  rw [expandName, String.toList_ofList]
  exact expands_expand _ le_rfl

end SidecarService

namespace Staging
variable {host : Service} {sidecars : List SidecarService} {resolved : Resolved}

/-- The profiles of a host by name, and over them those of its sidecars, the last one first. -/
structure Merges (host : Service) (sidecars : List SidecarService) (resolved : Resolved)
    (merged : Table Profile) : Prop where
  found : ∀ name, merged.get? name =
    (((asked host sidecars).filterMap (supplied? resolved)).reverse.find? fun p =>
      p.name = name).or ((resolved.profilesOf host.serviceType).get? name)
  -- the names under which profiles stand, which are their own where those of the host are
  ascending : ∃ names : List String, names.Pairwise (· < ·) ∧
    List.Forall₂ (fun name p => merged.get? name = some p) names merged.values ∧
    (Profile.Keyed (resolved.profilesOf host.serviceType) → merged.values.map (·.name) = names)

theorem failure?_mergeProfiles_asked (host : Service) (sidecars : List SidecarService)
    (resolved : Resolved) : failure? (mergeProfiles host sidecars resolved) =
      ((asked host sidecars).find? fun a => supplied? resolved a = none).map fun a =>
        missingProfile a.1 host a.2 := by
  rw [failure?_mergeProfiles, asked, List.find?_flatMap, List.map_findSome?]
  refine findSome?_congr fun s _ => ?_
  rw [Function.comp_apply, List.find?_map, Option.map_map]
  rfl

theorem merges_of_ok {merged : Table Profile}
    (ok : mergeProfiles host sidecars resolved = .ok merged) :
    Merges host sidecars resolved merged := by
  constructor
  · intro name
    rw [mergeProfiles_ok ok, Profile.get?_foldl_insert]
  · refine ⟨merged.keys, List.pairwise_map.mpr merged.sorted, ?_, fun keyed => ?_⟩
    · rw [Table.keys, Table.values, List.forall₂_map_left_iff, List.forall₂_map_right_iff]
      exact List.forall₂_same.mpr fun e member => Table.mem_entries_iff.mp member
    · have named := keyed_mergeProfiles keyed ok
      rw [Table.keys, Table.values, List.map_map]
      exact List.map_congr_left fun e member => named e.1 e.2 (Table.mem_entries_iff.mp member)

/-- The merged profiles that land in a directory, in order. -/
def membersOf (merged : Table Profile) (directory : String) : List Profile :=
  merged.values.filter fun p => p.outputDirectory = directory

structure Collects (stagingPath : Path) (merged : Table Profile) (directory : String)
    (g : StagingGroup) : Prop where
  mountPath : g.mountPath = directory
  files : g.files = (membersOf merged directory).map fun p =>
    ⟨stagingPath.join p.name, ⟨p.outputFile⟩⟩
  env : ∀ k, g.env.get? k = lastSome? (fun p => p.env.get? k) (membersOf merged directory)

/-- The files that profiles require go together, into the directory of the first. -/
inductive Gathers : List String → List StagingGroup → Prop where
  | nothing : Gathers [] []
  | bundle {first : String} {rest : List String} {g : StagingGroup}
      (mountPath : g.mountPath = (⟨first⟩ : Path).directory)
      (files : g.files = (first :: rest).map MountPair.verbatim) (env : g.env = .empty) :
      Gathers (first :: rest) [g]

/-- A bundle puts its files where their profiles declare them. -/
theorem Collects.components_mounted {stagingPath : Path} {merged : Table Profile}
    {directory : String} {g : StagingGroup} (collected : Collects stagingPath merged directory g)
    {pair : MountPair} (member : pair ∈ g.files) (absolute : pair.destination.isAbsolute = true)
    {name : List Char} (named : pair.destination.components.getLast? = some (.name name)) :
    ((⟨g.mountPath⟩ : Path).join pair.fileName).components = pair.destination.components := by
  rw [collected.files] at member
  obtain ⟨p, held, rfl⟩ := List.mem_map.mp member
  have lands : p.outputDirectory = directory := by simpa using List.of_mem_filter held
  rw [collected.mountPath, ← lands, Path.fileName_of_last _ named]
  exact Path.components_join_directory absolute named

/-- Groups that divide the merged profiles: one for each directory in ascending order, and after
them one for the required files if there are any. -/
structure Divides (stagingPath : Path) (merged : Table Profile) (directories : List String)
    (bundles required : List StagingGroup) : Prop where
  ascending : directories.Pairwise (· < ·)
  occupied : ∀ directory,
    directory ∈ directories ↔ ∃ p ∈ merged.values, p.outputDirectory = directory
  collected : List.Forall₂ (Collects stagingPath merged) directories bundles
  once : (directories.flatMap (membersOf merged)).Perm merged.values
  gathered : Gathers (merged.values.flatMap (·.requiredFiles)).eraseDups required

theorem membersOf_eq {merged : Table Profile} {e : String × List Profile}
    (member : e ∈ (byDirectory merged).entries) : membersOf merged e.1 = e.2 := by
  rw [members_eq member, membersOf, Table.values, List.filter_map]
  rfl

theorem collects_directoryGroup {stagingPath : Path} {merged : Table Profile}
    {e : String × List Profile} (member : e ∈ (byDirectory merged).entries) :
    Collects stagingPath merged e.1 (directoryGroup stagingPath e.1 e.2) := by
  rw [← membersOf_eq member]
  refine ⟨rfl, rfl, fun k => ?_⟩
  rw [directoryGroup, Table.get?_overlays, lastSome?_map]

theorem gathers_requiredGroup (files : List String) : Gathers files (requiredGroup files) := by
  cases files with
  | nil => exact .nothing
  | cons first rest => exact .bundle rfl rfl rfl

theorem perm_members (merged : Table Profile) :
    ((byDirectory merged).keys.flatMap (membersOf merged)).Perm merged.values := by
  have listed := (perm_suppliers merged).map (·.2)
  rw [suppliers, List.map_flatMap] at listed
  rw [Table.keys, List.flatMap_map]
  refine List.Perm.trans (List.Perm.of_eq ?_) listed
  refine List.flatMap_congr fun e member => ?_
  rw [membersOf, Table.values, List.filter_map]
  rfl

theorem exists_divides (stagingPath : Path) (merged : Table Profile) :
    ∃ directories bundles required, Divides stagingPath merged directories bundles required ∧
      groups stagingPath merged = bundles ++ required := by
  refine ⟨(byDirectory merged).keys, _, _, ?_, rfl⟩
  constructor
  · exact List.pairwise_map.mpr (byDirectory merged).sorted
  · exact fun directory => mem_keys_byDirectory
  · rw [Table.keys, List.forall₂_map_left_iff, List.forall₂_map_right_iff]
    exact List.forall₂_same.mpr fun e member => collects_directoryGroup member
  · exact perm_members merged
  · rw [← requiredFiles_eq]
    exact gathers_requiredGroup _

end Staging

section Calls
variable {σ : Type}

/-- A store gives a name to each of some requests, one after another. -/
inductive BundleStore.Answers (store : BundleStore σ) :
    List BundleRequest → σ → List String → σ → Prop where
  | nil (s : σ) : Answers store [] s [] s
  | cons {r : BundleRequest} {rest : List BundleRequest} {s t u : σ} {name : String}
      {names : List String} (first : store.create r s = (.ok name, t))
      (later : Answers store rest t names u) : Answers store (r :: rest) s (name :: names) u

/-- How calls end that are made in order: all are answered, or the first that fails is the last. -/
inductive BundleStore.Ends (store : BundleStore σ) (requests : List BundleRequest) (s : σ) :
    Except StoreError (List String) → σ → List BundleRequest → Prop where
  | answered {names : List String} {s' : σ} (all : store.Answers requests s names s') :
      Ends store requests s (.ok names) s' requests
  | refused {before after : List BundleRequest} {r : BundleRequest} {names : List String}
      {t s' : σ} {e : StoreError} (split : requests = before ++ r :: after)
      (earlier : store.Answers before s names t) (here : store.create r t = (.error e, s')) :
      Ends store requests s (.error e) s' (before ++ [r])

theorem BundleStore.Ends.cons {store : BundleStore σ} {r : BundleRequest}
    {rest calls : List BundleRequest} {s t u : σ} {name : String}
    {answer : Except StoreError (List String)} (first : store.create r s = (.ok name, t))
    (later : store.Ends rest t answer u calls) :
    store.Ends (r :: rest) s (answer.map (name :: ·)) u (r :: calls) := by
  cases later with
  | answered all => exact .answered (.cons first all)
  | refused split earlier here =>
    rw [split]
    exact .refused rfl (.cons first earlier) here

theorem BundleStore.Ends.calls_prefix {store : BundleStore σ} {requests calls : List BundleRequest}
    {s s' : σ} {answer : Except StoreError (List String)}
    (ended : store.Ends requests s answer s' calls) : calls <+: requests := by
  cases ended with
  | answered all => exact List.prefix_rfl
  | @refused before after _ _ _ _ _ split =>
    rw [split]
    exact ⟨after, by simp⟩

namespace Staging

/-- What staging returns for groups when the store has answered or refused. -/
def sourcesOf (plan : List StagingGroup) :
    Except StoreError (List String) → Except DeployError (List ConfigSource)
  | .ok names => .ok (List.zipWith (fun name g => .secret name g.mountPath g.env) names plan)
  | .error e => .error (.store e)

variable {store : BundleStore σ} {account : Account} {service : Service} {namespaceName : String}
  {g : StagingGroup} {rest : List StagingGroup} {s t u : σ}

theorem stageGroups_refused {e : StoreError}
    (made : store.create (request account service namespaceName g) s = (.error e, t)) :
    ((g :: rest).mapM (stageGroup store account service namespaceName) : Activity σ _).outcome s =
      (.error (.store e), t) := by
  have failed : (create store (request account service namespaceName g)).outcome s =
      (.error (.store e), t) := by
    rw [outcome_create, made]
    rfl
  rw [List.mapM_cons, Activity.outcome_bind_error, stageGroup, Activity.outcome_bind_error]
  exact .inl (.inl failed)

theorem stageGroups_answered {name : String} {answer : Except StoreError (List String)}
    (made : store.create (request account service namespaceName g) s = (.ok name, t))
    (later : (rest.mapM (stageGroup store account service namespaceName) : Activity σ _).outcome t =
      (sourcesOf rest answer, u)) :
    ((g :: rest).mapM (stageGroup store account service namespaceName) : Activity σ _).outcome s =
      (sourcesOf (g :: rest) (answer.map (name :: ·)), u) := by
  have first : (stageGroup store account service namespaceName g).outcome s =
      (.ok (.secret name g.mountPath g.env), t) := by
    refine Activity.outcome_bind_ok.mpr ⟨name, t, ?_, rfl⟩
    rw [outcome_create, made]
    rfl
  cases answer with
  | error e =>
    rw [List.mapM_cons]
    refine Activity.outcome_bind_error.mpr (.inr ⟨_, t, first, ?_⟩)
    exact Activity.outcome_bind_error.mpr (.inl later)
  | ok names => exact Activity.outcome_mapM_cons_ok.mpr ⟨_, t, _, first, later, rfl⟩

variable (store account service namespaceName) in
/-- Staging groups makes one call for each of them until one fails. -/
theorem stageGroups_ends (gs : List StagingGroup) (s : σ) (seen : List BundleRequest) :
    ∃ answer s' calls,
      store.Ends (gs.map (request account service namespaceName)) s answer s' calls ∧
      (gs.mapM (stageGroup store account service namespaceName) : Activity σ _).outcome s =
        (sourcesOf gs answer, s') ∧
      (gs.mapM (stageGroup store.observed account service namespaceName) :
        Activity (σ × List BundleRequest) _).outcome (s, seen) =
          (sourcesOf gs answer, (s', seen ++ calls)) := by
  induction gs generalizing s seen with
  | nil => exact ⟨.ok [], s, [], .answered (.nil s), rfl, by rw [List.append_nil]; rfl⟩
  | cons g rest ih =>
    let r := request account service namespaceName g
    have noted : store.observed.create r (s, seen) =
        ((store.create r s).1, ((store.create r s).2, seen ++ [r])) := rfl
    rcases made : store.create r s with ⟨e | name, t⟩
    · rw [made] at noted
      refine ⟨.error e, t, [r], ?_, stageGroups_refused made, stageGroups_refused noted⟩
      have split : (g :: rest).map (request account service namespaceName) =
          [] ++ r :: rest.map (request account service namespaceName) := rfl
      exact .refused split (.nil s) made
    · rw [made] at noted
      obtain ⟨answer, s', calls, ended, result, watched⟩ := ih t (seen ++ [r])
      rw [List.append_assoc, List.singleton_append] at watched
      exact ⟨answer.map (name :: ·), s', r :: calls, .cons made ended,
        stageGroups_answered made result, stageGroups_answered noted watched⟩

/-- Where a sidecar names a profile that is missing, staging ends with the first of them and asks
the store for nothing. Otherwise the calls are those of the groups that divide the merged profiles,
up to the first that fails, and every name that comes back is mounted where its group lands. -/
theorem calls_of_stage (store : BundleStore σ) (account : Account) (service : Service)
    (sidecars : List SidecarService) (resolved : Resolved) (stagingPath : Path)
    (namespaceName : String) (s : σ) :
    (∀ sidecar ∈ sidecars, List.Forall₂ (fun name expanded : String =>
      SidecarService.Expands service.serviceType.toList name.toList expanded.toList)
      sidecar.profileNames (sidecar.profileNamesFor service)) ∧
    ∃ result s' calls,
      (stage store account service sidecars resolved stagingPath namespaceName).outcome s =
        (result, s') ∧
      (stage store.observed account service sidecars resolved stagingPath namespaceName).outcome
        (s, []) = (result, (s', calls)) ∧
      match (asked service sidecars).find? fun a => supplied? resolved a = none with
      | some (sidecar, name) =>
        result = .error (.sidecarProfileMissing sidecar.service.canonicalName
          service.canonicalName name) ∧ s' = s ∧ calls = []
      | none => ∃ merged directories bundles required answer,
        Merges service sidecars resolved merged ∧
        Divides stagingPath merged directories bundles required ∧
        store.Ends ((bundles ++ required).map (request account service namespaceName)) s answer
          s' calls ∧
        result = sourcesOf (bundles ++ required) answer := by
  refine ⟨fun sidecar _ => sidecar.expands_profileNamesFor service, ?_⟩
  have missing := failure?_mergeProfiles_asked service sidecars resolved
  unfold stage
  simp only [Activity.outcome_lift_bind]
  cases merging : mergeProfiles service sidecars resolved with
  | error e =>
    rw [merging] at missing
    obtain ⟨⟨sidecar, name⟩, first, rfl⟩ := Option.map_eq_some_iff.mp missing.symm
    rw [first]
    exact ⟨_, s, [], rfl, rfl, rfl, rfl, rfl⟩
  | ok merged =>
    rw [merging] at missing
    rw [Option.map_eq_none_iff.mp missing.symm]
    obtain ⟨directories, bundles, required, divided, planned⟩ := exists_divides stagingPath merged
    obtain ⟨answer, s', calls, ended, made, watched⟩ :=
      stageGroups_ends store account service namespaceName (groups stagingPath merged) s []
    rw [planned] at ended
    refine ⟨_, s', calls, made, watched, merged, directories, bundles, required, answer,
      merges_of_ok merging, divided, ended, ?_⟩
    rw [planned]

end Staging
end Calls
end Stevedore
