import Stevedore.Proofs.Pod.Containers

/-!
What the monitoring sidecar brings to the pods of a declaration without violations. It is attached
where it is enabled and asked for, its profiles go over those of its host, and a host can be staged
only if it has all the profiles that it is asked for.
-/
namespace Stevedore

namespace Profile

theorem get?_byName_eq_none_iff {profiles : List Profile} {name : String} :
    (byName profiles).get? name = none ↔ name ∉ profiles.map (·.name) := by
  simp [get?_byName]

theorem get?_byName_filter (profiles : List Profile) (names : List String) (name : String) :
    (byName (profiles.filter fun p => p.name ∈ names)).get? name =
      if name ∈ names then (byName profiles).get? name else none := by
  rw [get?_byName, get?_byName, ← List.filter_reverse, List.find?_filter]
  split
  · next selected =>
    congr 1
    funext p
    by_cases same : p.name = name
    · simp [same, selected]
    · simp [same]
  · next other =>
    refine List.find?_eq_none.mpr fun p _ both => ?_
    simp only [decide_eq_true_eq] at both
    exact other (both.2 ▸ both.1)

end Profile

namespace Staging

def missingProfile (sidecar : SidecarService) (host : Service) (name : String) : DeployError :=
  .sidecarProfileMissing sidecar.service.canonicalName host.canonicalName name

theorem failure?_addSidecarProfile (sidecar : SidecarService) (host : Service) (t : Table Profile)
    (entry : String × Option Profile) : failure? (addSidecarProfile sidecar host t entry) =
      if entry.2 = none then some (missingProfile sidecar host entry.1) else none := by
  obtain ⟨name, _ | p⟩ := entry
  · rfl
  · rfl

/-- Merging fails at the first profile that the first sidecar to lack one is asked for. -/
theorem failure?_mergeProfiles (host : Service) (sidecars : List SidecarService)
    (resolved : Resolved) : failure? (mergeProfiles host sidecars resolved) =
      sidecars.findSome? fun s => ((s.profileNamesFor host).find? fun name =>
        (resolved.profilesOf s.service.serviceType).get? name = none).map (missingProfile s host) := by
  refine failure?_foldlM (fun profiles s => ?_) sidecars _
  rw [failure?_foldlM (failure?_addSidecarProfile s host), SidecarService.profilesFor,
    List.findSome?_map, List.find?_eq_findSome?_guard, List.map_findSome?]
  refine findSome?_congr fun name _ => ?_
  by_cases found : (resolved.profilesOf s.service.serviceType).get? name = none
  · simp [found, Option.guard]
  · simp [found, Option.guard]

end Staging

/-- The first profile that a host has to mount for a sidecar and that the sidecar does not have. -/
def Entry.missing? (m : Entry SidecarService) (host : Service) : Option String :=
  (m.subject.profileNamesFor host).find? fun name => name ∉ m.profiles.map (·.name)

namespace Declaration
variable {d : Declaration} {root : Path} {plan : Plan} {e : Entry Service}
  {m : Entry SidecarService}

/-- The monitoring sidecar, where it is attached to a declared service. -/
def monitorOf (d : Declaration) (e : Entry Service) : Option (Entry SidecarService) :=
  d.monitoring.filter fun m => m.settings.enabled && e.settings.monitored

/-- The profiles that a declared service mounts, by name: its own, and those of the monitoring
sidecar that it is asked to mount, which come first where names are shared. -/
def stagedProfiles (d : Declaration) (e : Entry Service) : Table Profile :=
  Profile.byName (e.profiles ++ (d.monitorOf e).toList.flatMap fun m =>
    m.profiles.filter fun p => p.name ∈ m.subject.profileNamesFor e.subject)

theorem mem_entries_monitorOf (attached : d.monitorOf e = some m) :
    m.map SidecarService.service ∈ d.entries :=
  mem_entries_monitoring (Option.filter_eq_some_iff.mp attached).1

theorem profilesOf_monitor (accepted : d.violation? = none) (ok : d.resolve root = .ok plan)
    (attached : d.monitorOf e = some m) :
    plan.resolved.profilesOf m.subject.service.serviceType = Profile.byName m.profiles :=
  profilesOf_resolved accepted ok (mem_entries_monitorOf attached)

theorem failure?_merge_declared (accepted : d.violation? = none) (ok : d.resolve root = .ok plan)
    (e : Entry Service) :
    failure? (Staging.mergeProfiles e.subject ((d.monitorOf e).toList.map (·.subject))
      plan.resolved) = (d.monitorOf e).bind fun m =>
        (m.missing? e.subject).map (Staging.missingProfile m.subject e.subject) := by
  rw [Staging.failure?_mergeProfiles, List.findSome?_map]
  cases attached : d.monitorOf e with
  | none => rfl
  | some m =>
    have theirs := profilesOf_monitor accepted ok attached
    simp only [Option.toList_some, List.findSome?_singleton, Function.comp_apply, theirs,
      Profile.get?_byName_eq_none_iff, Option.bind_some]
    rfl

theorem merged_declared (accepted : d.violation? = none) (ok : d.resolve root = .ok plan)
    (declared : e ∈ d.services) {merged : Table Profile}
    (merging : Staging.mergeProfiles e.subject ((d.monitorOf e).toList.map (·.subject))
      plan.resolved = .ok merged) : merged = d.stagedProfiles e := by
  have own : plan.resolved.profilesOf e.subject.serviceType = Profile.byName e.profiles :=
    profilesOf_resolved accepted ok (List.mem_append_left _ declared)
  have supplied := failure?_merge_declared accepted ok e
  rw [merging] at supplied
  apply Table.ext_get?
  intro name
  rw [stagedProfiles, Profile.get?_byName, List.reverse_append, List.find?_append,
    ← Profile.get?_byName, ← Profile.get?_byName, ← own]
  -- the look-ups compared are those of the own profiles, with at most one overlay
  cases attached : d.monitorOf e with
  | none =>
    rw [attached] at merging
    obtain rfl := Except.ok.inj merging
    rfl
  | some m =>
    have theirs := profilesOf_monitor accepted ok attached
    rw [attached] at merging supplied
    have complete : m.missing? e.subject = none := by
      simpa [failure?] using supplied.symm
    have keyed : ∀ s ∈ [m.subject], Profile.Keyed
        (plan.resolved.profilesOf s.service.serviceType) := by
      intro s member
      rw [List.mem_singleton.mp member, theirs]
      exact Profile.keyed_foldl_insert Profile.keyed_empty _
    have overlaid := Staging.get?_mergeProfiles keyed merging name
    rw [overlaid, List.foldl_cons, List.foldl_nil, Staging.selectFrom, theirs, Option.toList_some,
      List.flatMap_singleton, Profile.get?_byName_filter]
    split
    · next selected =>
      have held := List.find?_eq_none.mp complete name selected
      cases found : (Profile.byName m.profiles).get? name with
      | none => exact absurd (decide_eq_true (Profile.get?_byName_eq_none_iff.mp found)) held
      | some p => rfl
    · rfl

end Declaration

namespace Assembler
variable {σ : Type} {a : Assembler σ} {d : Declaration} {root : Path} {plan : Plan}
  {e : Entry Service}

theorem sidecarsOf_declared (accepted : d.violation? = none) (ok : d.resolve root = .ok plan)
    (rules : a.rules = plan.rules) (declared : e ∈ d.services) :
    a.sidecarsOf e.subject plan.resolved = (d.monitorOf e).toList.map (·.subject) := by
  obtain ⟨own, completed, found⟩ :=
    Declaration.settings_resolved accepted ok (List.mem_append_left _ declared)
  have monitored : own.monitored = e.settings.monitored := (Settings.complete_keeps completed).2.1
  obtain ⟨-, -, -, monitoring⟩ := Declaration.resolve_ok_iff.mp ok
  rw [sidecarsOf, SidecarRule.attached, rules, Plan.rules, monitoring, Declaration.monitorOf]
  cases here : d.monitoring with
  | none => rfl
  | some m =>
    obtain ⟨theirs, completed', found'⟩ :=
      Declaration.settings_resolved accepted ok (Declaration.mem_entries_monitoring here)
    have enabled : theirs.enabled = m.settings.enabled := (Settings.complete_keeps completed').1
    have holds : SidecarRule.isMonitoring plan.resolved.settings e.subject m.subject =
        (theirs.enabled && own.monitored) := by
      change (((plan.resolved.settingsOf? m.subject.service).map _).getD false &&
        ((plan.resolved.settingsOf? e.subject).map _).getD false) = _
      have same : plan.resolved.settingsOf? m.subject.service = some theirs := found'
      rw [same, found]
      rfl
    rw [enabled, monitored] at holds
    cases both : m.settings.enabled && e.settings.monitored with
    | false => simp [SidecarRule.holds, holds, both, Option.filter]
    | true => simp [SidecarRule.holds, holds, both, Option.filter]

end Assembler
end Stevedore
