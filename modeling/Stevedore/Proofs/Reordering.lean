import Mathlib.Data.Option.Basic
import Stevedore.Proofs.ConcurrentAssembly
import Stevedore.Proofs.Failures

/-!
The order of a declaration. What is declared stands under names and types of its own, so that
services in another order, each with its profiles in another order, are accepted and resolved like
before and assembled to the same manifests.
-/
namespace Stevedore

namespace Entry
variable {α β : Type}

/-- The same entry with its profiles in another order. -/
structure Permuted (e e' : Entry α) : Prop where
  subject : e'.subject = e.subject
  settings : e'.settings = e.settings
  profiles : e'.profiles.Perm e.profiles

/-- Entries in another order, each of them with its profiles in another order. -/
def Reordered (entries entries' : List (Entry α)) : Prop :=
  ∃ moved, entries.Perm moved ∧ List.Forall₂ Permuted moved entries'

theorem permuted_map {e e' : Entry α} (permuted : e.Permuted e') (f : α → β) :
    (e.map f).Permuted (e'.map f) where
  subject := congrArg f permuted.subject
  settings := permuted.settings
  profiles := permuted.profiles

namespace Reordered
variable {entries entries' : List (Entry α)} (reordered : Reordered entries entries')
include reordered

theorem map_perm {f : Entry α → β} (same : ∀ e e', e.Permuted e' → f e = f e') :
    (entries.map f).Perm (entries'.map f) := by
  obtain ⟨moved, perm, related⟩ := reordered
  rw [← map_eq_of_forall₂ related same]
  exact perm.map f

theorem exists_before {e' : Entry α} (member : e' ∈ entries') : ∃ e ∈ entries, e.Permuted e' := by
  obtain ⟨moved, perm, related⟩ := reordered
  obtain ⟨e, held, permuted⟩ := exists_of_forall₂ related member
  exact ⟨e, perm.mem_iff.mpr held, permuted⟩

theorem exists_after {e : Entry α} (member : e ∈ entries) : ∃ e' ∈ entries', e.Permuted e' := by
  obtain ⟨moved, perm, related⟩ := reordered
  exact exists_of_forall₂ related.flip (perm.mem_iff.mp member)

theorem append {others others' : List (Entry α)} (reordered' : Reordered others others') :
    Reordered (entries ++ others) (entries' ++ others') := by
  obtain ⟨moved, perm, related⟩ := reordered
  obtain ⟨moved', perm', related'⟩ := reordered'
  exact ⟨moved ++ moved', perm.append perm', List.rel_append related related'⟩

end Reordered
end Entry

/-- Profiles with names of their own are the same by name in every order. -/
theorem Profile.byName_perm {profiles profiles' : List Profile} (perm : profiles'.Perm profiles)
    (distinct : (profiles.map (·.name)).Nodup) : byName profiles' = byName profiles := by
  refine (perm.symm.foldl_eq' (fun p held q held' t => ?_) Table.empty).symm
  by_cases same : p.name = q.name
  · rw [List.inj_on_of_nodup_map distinct held held' same]
  · exact t.insert_comm same p q

namespace Declaration

/-- The same declaration with its services in another order, and with the profiles of each service
and of the monitoring sidecar in another order. -/
structure Reordered (d d' : Declaration) : Prop where
  rest : d' = { d with services := d'.services, monitoring := d'.monitoring }
  services : Entry.Reordered d.services d'.services
  monitoring : Option.Rel Entry.Permuted d.monitoring d'.monitoring

namespace Reordered
variable {d d' : Declaration} (reordered : d.Reordered d')
include reordered

theorem entries : Entry.Reordered d.entries d'.entries := by
  refine reordered.services.append ?_
  have related := reordered.monitoring
  generalize d.monitoring = monitoring, d'.monitoring = monitoring' at related ⊢
  cases related with
  | none => exact ⟨[], .refl _, .nil⟩
  | some permuted => exact ⟨_, .refl _, .cons (Entry.permuted_map permuted _) .nil⟩

theorem mem_reservedNames {type name : String} (reserved : name ∈ d'.reservedNames type) :
    name ∈ d.reservedNames type := by
  rw [Declaration.mem_reservedNames] at reserved ⊢
  rcases reserved with ⟨e', held, same⟩ | ⟨m', held, same⟩
  · obtain ⟨e, here, permuted⟩ := reordered.services.exists_before held
    rw [permuted.subject] at same
    exact .inl ⟨e, here, same⟩
  · have related := reordered.monitoring
    rw [Option.mem_def.mp held] at related
    generalize there : d.monitoring = monitoring at related
    cases related with
    | some permuted =>
      rw [permuted.subject] at same
      exact .inr ⟨_, rfl, same⟩

theorem accepts (accepted : d.violation? = none) : d'.violation? = none := by
  obtain ⟨named, sound, sidecars⟩ := violation?_eq_none_iff.mp accepted
  obtain ⟨each, names, types⟩ := entriesViolation?_eq_none_iff.mp sound
  refine violation?_eq_none_iff.mpr ⟨?_, entriesViolation?_eq_none_iff.mpr ⟨?_, ?_, ?_⟩, ?_⟩
  · rw [reordered.rest]
    exact named
  · intro e' member
    obtain ⟨e, held, permuted⟩ := reordered.entries.exists_before member
    rw [Sound, permuted.subject, permuted.settings]
    exact each e held
  · refine (reordered.entries.map_perm fun e e' permuted => ?_).nodup_iff.mp names
    rw [permuted.subject]
  · refine (reordered.entries.map_perm fun e e' permuted => ?_).nodup_iff.mp types
    rw [permuted.subject]
  · intro type custom found
    rw [reordered.rest] at found
    obtain ⟨fresh, distinct⟩ := sidecarsViolation?_eq_none_iff.mp (sidecars type custom found)
    refine sidecarsViolation?_eq_none_iff.mpr ⟨fun s member => ⟨fun reserved => ?_, ?_⟩, distinct⟩
    · exact (fresh s member).1 (reordered.mem_reservedNames reserved)
    · exact (fresh s member).2

theorem completeSettings_eq {e e' : Entry Service} (permuted : e.Permuted e') :
    d'.completeSettings e' = d.completeSettings e := by
  rw [reordered.rest]
  unfold completeSettings
  rw [permuted.subject, permuted.settings]

theorem adds_eq {e e' : Entry Service} (permuted : e.Permuted e')
    (distinct : (e.profiles.map (·.name)).Nodup) :
    d'.adds e' (none, none) = d.adds e (none, none) := by
  have tables : Profile.byName e'.profiles = Profile.byName e.profiles :=
    Profile.byName_perm permuted.profiles distinct
  have empty_iff : e'.profiles = [] ↔ e.profiles = [] := by
    rw [← List.length_eq_zero_iff, permuted.profiles.length_eq, List.length_eq_zero_iff]
  unfold adds
  rw [reordered.completeSettings_eq permuted]
  by_cases none_ : e.profiles = []
  · rw [if_pos none_, if_pos (empty_iff.mpr none_)]
  · rw [if_neg none_, if_neg (none_ ∘ empty_iff.mp)]
    exact congrArg (fun table => (_, some table)) tables

variable {root : Path} {plan plan' : Plan}

theorem deployment_eq (ok : d.resolve root = .ok plan) (ok' : d'.resolve root = .ok plan') :
    plan'.deployment = plan.deployment := by
  obtain ⟨-, deployment, -, -⟩ := resolve_ok_iff.mp ok
  obtain ⟨-, deployment', -, -⟩ := resolve_ok_iff.mp ok'
  rw [deployment, deployment', reordered.rest]

theorem monitoring_eq (ok : d.resolve root = .ok plan) (ok' : d'.resolve root = .ok plan') :
    plan'.monitoring = plan.monitoring := by
  obtain ⟨-, -, -, monitoring⟩ := resolve_ok_iff.mp ok
  obtain ⟨-, -, -, monitoring'⟩ := resolve_ok_iff.mp ok'
  rw [monitoring, monitoring']
  have related := reordered.monitoring
  generalize d.monitoring = before, d'.monitoring = after at related ⊢
  cases related with
  | none => rfl
  | some permuted => exact congrArg some permuted.subject

theorem services_perm (ok : d.resolve root = .ok plan) (ok' : d'.resolve root = .ok plan') :
    plan.services.Perm plan'.services := by
  obtain ⟨-, -, services, -⟩ := resolve_ok_iff.mp ok
  obtain ⟨-, -, services', -⟩ := resolve_ok_iff.mp ok'
  rw [services, services']
  exact reordered.services.map_perm fun e e' permuted => permuted.subject.symm

theorem resolves (ok : d.resolve root = .ok plan) : ∃ plan', d'.resolve root = .ok plan' := by
  refine resolves_iff.mpr fun e' member => ?_
  obtain ⟨e, held, permuted⟩ := reordered.entries.exists_before member
  rw [reordered.completeSettings_eq permuted]
  exact resolves_iff.mp ⟨plan, ok⟩ e held

theorem resolved_eq (accepted : d.violation? = none) (ok : d.resolve root = .ok plan)
    (ok' : d'.resolve root = .ok plan')
    (distinct : ∀ e ∈ d.entries, (e.profiles.map (·.name)).Nodup) :
    plan'.resolved = plan.resolved := by
  obtain ⟨declared, undeclared⟩ := under_resolved accepted ok
  obtain ⟨declared', undeclared'⟩ := under_resolved (reordered.accepts accepted) ok'
  have types : (d.entries.map (·.subject.serviceType)).Perm
      (d'.entries.map (·.subject.serviceType)) :=
    reordered.entries.map_perm fun e e' permuted => by rw [permuted.subject]
  refine Resolved.eq_of_under fun type => ?_
  -- a type has one entry on each side or on neither
  by_cases member : type ∈ d.entries.map (·.subject.serviceType)
  · obtain ⟨e, held, rfl⟩ := List.mem_map.mp member
    obtain ⟨e', held', permuted⟩ := reordered.entries.exists_after held
    rw [declared e held, ← permuted.subject, declared' e' held',
      reordered.adds_eq permuted (distinct e held)]
  · rw [undeclared type member, undeclared' type (types.mem_iff.not.mp member)]

end Reordered
end Declaration

namespace Assembler
variable {a : Assembler SecretState} {tree : File.Tree} (secretsAt : a.store = .secrets tree)
  {declared declared' enabled enabled' : List Service} {deployment : Deployment}
  {resolved : Resolved}

/-- The secrets of services with distinct names do not get into each other's way. -/
theorem keep_secretsOf_perm (perm : enabled.Perm enabled')
    (distinct : (enabled.map (·.canonicalName)).Nodup) (state : SecretState) :
    enabled'.foldl (fun state s => SecretStore.keep state (a.secretsOf tree deployment resolved s))
        state =
      enabled.foldl (fun state s => SecretStore.keep state (a.secretsOf tree deployment resolved s))
        state := by
  -- names are apart or the services are the same, so that any two of them may be swapped
  refine (perm.foldl_eq' (fun service held other held' state => ?_) state).symm
  by_cases same : service.canonicalName = other.canonicalName
  · rw [List.inj_on_of_nodup_map distinct held held' same]
  · exact SecretStore.keep_comm (a.names_apart_secretsOf tree deployment resolved same) state

include secretsAt

/-- Where all services are assembled, each of them is, from every state to the same manifests. -/
theorem each_of_assembleAll (on : enabledServices declared resolved = .ok enabled)
    {state seen : SecretState} {ms : List ServiceManifests}
    (ok : (a.assembleAll declared deployment resolved).outcome state = (.ok ms, seen)) :
    ∃ manifestsOf : Service → ServiceManifests, ∀ s ∈ enabled, ∀ state,
      (a.assemble s deployment resolved).outcome state =
        (.ok (manifestsOf s),
          SecretStore.keep state (a.secretsOf tree deployment resolved s)) := by
  rw [assembleAll, on, Activity.lift_ok_bind] at ok
  have results : List.Forall₂ (fun s m => (a.job s deployment resolved).result tree = .ok m)
      enabled ms := by
    refine Activity.forall₂_of_mapM (fun s state m t made => ?_) ok
    rw [outcome_assemble deployment resolved secretsAt] at made
    exact congrArg Prod.fst made
  -- a service that is not enabled is given any manifests, for a function of all services
  have some_ : ∀ s, ∃ m, s ∈ enabled → (a.job s deployment resolved).result tree = .ok m := by
    intro s
    by_cases member : s ∈ enabled
    · obtain ⟨m, -, made⟩ := exists_of_forall₂ results.flip member
      exact ⟨m, fun _ => made⟩
    · exact ⟨⟨"", "", "", "", ""⟩, fun held => absurd held member⟩
  choose manifestsOf made using some_
  refine ⟨manifestsOf, fun s member state => ?_⟩
  rw [outcome_assemble deployment resolved secretsAt, made s member]

/-- Assembly of all services that succeeds succeeds in every order of them, with the manifests in
that order and the same secrets. -/
theorem assembleAll_perm (on : enabledServices declared resolved = .ok enabled)
    (on' : enabledServices declared' resolved = .ok enabled') (perm : enabled.Perm enabled')
    (distinct : (enabled.map (·.canonicalName)).Nodup) {state seen : SecretState}
    {ms : List ServiceManifests}
    (ok : (a.assembleAll declared deployment resolved).outcome state = (.ok ms, seen)) :
    ∃ manifestsOf : Service → ServiceManifests,
      (∀ s ∈ enabled, ∀ state,
        ((a.assemble s deployment resolved).outcome state).1 = .ok (manifestsOf s)) ∧
      ms = enabled.map manifestsOf ∧
      (a.assembleAll declared' deployment resolved).outcome state =
        (.ok (enabled'.map manifestsOf), seen) := by
  obtain ⟨manifestsOf, each⟩ := each_of_assembleAll secretsAt on ok
  have each' := fun s member => each s (perm.mem_iff.mpr member)
  rw [assembleAll, on, Activity.lift_ok_bind, Activity.outcome_mapM_ok each] at ok
  obtain ⟨listed, kept⟩ := Prod.mk.inj ok
  refine ⟨manifestsOf, fun s member state => congrArg Prod.fst (each s member state),
    (Except.ok.inj listed).symm, ?_⟩
  rw [assembleAll, on', Activity.lift_ok_bind, Activity.outcome_mapM_ok each',
    keep_secretsOf_perm perm distinct, kept]

end Assembler

namespace Declaration
variable {d : Declaration} {root : Path} {plan : Plan}

theorem enabledServices_resolved (accepted : d.violation? = none)
    (ok : d.resolve root = .ok plan) :
    enabledServices plan.services plan.resolved = .ok (plan.services.filter fun s =>
      (plan.resolved.settingsOf? s).any (·.enabled)) := by
  refine except_filterM_ok fun s member => ?_
  obtain ⟨e, held, rfl⟩ := exists_entry_of_service ok member
  obtain ⟨settings, -, found⟩ := settings_resolved accepted ok held
  rw [Resolved.isEnabled, Resolved.settingsFor, found]
  rfl

/-- The order of a declaration does not matter. A declaration that is accepted and resolved, with
distinct profile names in each entry, is accepted and resolved with its services and the profiles of
its entries in any other order, to the same deployment, settings and profiles; each service is
assembled to the same manifests and secrets; and where all services are assembled, they are in the
other order too, with the same manifests in the order of the services and the same secrets. -/
theorem order_immaterial (d d' : Declaration) (root : Path) (plan : Plan)
    (accepted : d.violation? = none) (ok : d.resolve root = .ok plan)
    (distinct : ∀ e ∈ d.entries, (e.profiles.map (·.name)).Nodup) (reordered : d.Reordered d') :
    d'.violation? = none ∧ ∃ plan', d'.resolve root = .ok plan' ∧
      plan'.deployment = plan.deployment ∧ plan'.resolved = plan.resolved ∧
      plan'.monitoring = plan.monitoring ∧ plan.services.Perm plan'.services ∧
      ∀ (templates : TemplateSet) (tree : File.Tree),
        let a : Assembler SecretState := ⟨templates, .secrets tree, plan.rules⟩
        let a' : Assembler SecretState := ⟨templates, .secrets tree, plan'.rules⟩
        (∀ s ∈ plan.services, ∀ state,
          (a'.assemble s plan'.deployment plan'.resolved).outcome state =
            (a.assemble s plan.deployment plan.resolved).outcome state) ∧
        ∃ enabled enabled', enabledServices plan.services plan.resolved = .ok enabled ∧
          enabledServices plan'.services plan'.resolved = .ok enabled' ∧ enabled.Perm enabled' ∧
          ∀ state ms seen,
            (a.assembleAll plan.services plan.deployment plan.resolved).outcome state =
              (.ok ms, seen) →
            ∃ manifestsOf : Service → ServiceManifests,
              (∀ s ∈ enabled, ∀ state, ((a.assemble s plan.deployment plan.resolved).outcome
                state).1 = .ok (manifestsOf s)) ∧
              ms = enabled.map manifestsOf ∧
              (a'.assembleAll plan'.services plan'.deployment plan'.resolved).outcome state =
                (.ok (enabled'.map manifestsOf), seen) := by
  obtain ⟨plan', ok'⟩ := reordered.resolves ok
  have accepted' := reordered.accepts accepted
  have resolved := reordered.resolved_eq accepted ok ok' distinct
  have deployment := reordered.deployment_eq ok ok'
  have monitoring := reordered.monitoring_eq ok ok'
  have services := reordered.services_perm ok ok'
  refine ⟨accepted', plan', ok', deployment, resolved, monitoring, services,
    fun templates tree => ?_⟩
  intro a a'
  have same : a' = a := by
    have rules : plan'.rules = plan.rules := by rw [Plan.rules, monitoring, Plan.rules]
    exact congrArg (Assembler.mk templates (.secrets tree)) rules
  have on := enabledServices_resolved accepted ok
  have on' := enabledServices_resolved accepted' ok'
  rw [same, deployment, resolved]
  rw [resolved] at on'
  refine ⟨fun s member state => rfl, _, _, on, on', services.filter _, fun state ms seen done => ?_⟩
  exact Assembler.assembleAll_perm rfl on on' (services.filter _)
    ((services_distinct accepted ok).sublist (List.filter_sublist.map _)) done

end Declaration

section Swapped

def Entry.reversed {α : Type} (e : Entry α) : Entry α := { e with profiles := e.profiles.reverse }

theorem Entry.permuted_reversed {α : Type} (e : Entry α) : e.Permuted e.reversed :=
  ⟨rfl, rfl, e.profiles.reverse_perm⟩

def apiEntry : Entry Service :=
  { subject := .named "api" "api" "api"
    settings := .listening 8081
    profiles := [profileAt "api.yml" "/api/api.yml", profileAt "log.yml" "/api/log.yml"] }

def orderedDeclaration : Declaration := { sharingDeclaration with services := [webEntry, apiEntry] }

def swappedDeclaration : Declaration :=
  { sharingDeclaration with
    services := [apiEntry.reversed, webEntry.reversed]
    monitoring := some monitorEntry.reversed }

def orderedPlan : Plan :=
  { sharingPlan with
    resolved :=
      { settings := Table.ofList [("web", completed "web" 8080), ("api", completed "api" 8081),
          ("monitor", completed "monitor" 9000)]
        profiles := Table.ofList [("web", Profile.byName webEntry.profiles),
          ("api", Profile.byName apiEntry.profiles),
          ("monitor", Profile.byName monitorEntry.profiles)] }
    services := [webEntry.subject, apiEntry.subject] }

def swappedPlan : Plan := { orderedPlan with services := [apiEntry.subject, webEntry.subject] }

/-- All profiles of the two services and their sidecar are staged. -/
def fullTree : File.Tree :=
  { entries := [(["staging"], .directory), (["staging", "demo"], .directory)] ++
      ["web.yml", "shared.yml", "api.yml", "log.yml"].map fun name =>
        (["staging", "demo", name], .file [112, 111, 114, 116])
    workingDirectory := [] }

theorem ordered_accepted : orderedDeclaration.violation? = none := by decide +kernel

theorem ordered_resolved : orderedDeclaration.resolve ⟨"/staging"⟩ = .ok orderedPlan := by rfl

theorem swapped_resolved : swappedDeclaration.resolve ⟨"/staging"⟩ = .ok swappedPlan := by rfl

theorem swapped_reordered : orderedDeclaration.Reordered swappedDeclaration where
  rest := rfl
  services := ⟨[apiEntry, webEntry], .swap _ _ _,
    .cons (Entry.permuted_reversed apiEntry) (.cons (Entry.permuted_reversed webEntry) .nil)⟩
  monitoring := .some (Entry.permuted_reversed monitorEntry)

def Plan.secretAssembler (plan : Plan) (tree : File.Tree) : Assembler SecretState :=
  ⟨.embedded, .secrets tree, plan.rules⟩

theorem ordered_each : ∀ e ∈ orderedDeclaration.services, ∃ m,
    (((orderedPlan.secretAssembler fullTree).assemble e.subject orderedPlan.deployment
      orderedPlan.resolved).outcome .empty).1 = .ok m := by
  intro e declared
  have failure := Commission.failure?_run_declared ordered_accepted ordered_resolved declared
    fullTree .empty
  refine failure?_eq_none_iff.mp (failure.trans ?_)
  clear failure
  revert e
  decide +kernel

theorem ordered_assembled : ∃ ms seen,
    ((orderedPlan.secretAssembler fullTree).assembleAll orderedPlan.services orderedPlan.deployment
      orderedPlan.resolved).outcome .empty = (.ok ms, seen) := by
  obtain ⟨web, madeWeb⟩ := ordered_each webEntry (.head _)
  obtain ⟨api, madeApi⟩ := ordered_each apiEntry (.tail _ (.head _))
  have both : enabledServices orderedPlan.services orderedPlan.resolved =
    .ok [webEntry.subject, apiEntry.subject] := rfl
  rcases ended : ((orderedPlan.secretAssembler fullTree).assembleAll orderedPlan.services
    orderedPlan.deployment orderedPlan.resolved).outcome .empty with ⟨result, seen⟩
  have first := Assembler.fst_assembleAll orderedPlan.deployment orderedPlan.resolved
    (a := orderedPlan.secretAssembler fullTree) rfl both .empty
  rw [ended, List.map_cons, List.map_cons, List.map_nil, madeWeb, madeApi] at first
  exact ⟨[web, api], seen, congrArg (·, seen) first⟩

/-- Two services are assembled in the order of their declaration, and in the other one. -/
theorem assembled_either_way :
    orderedDeclaration.violation? = none ∧
    orderedDeclaration.resolve ⟨"/staging"⟩ = .ok orderedPlan ∧
    (∀ e ∈ orderedDeclaration.entries, (e.profiles.map (·.name)).Nodup) ∧
    orderedDeclaration.Reordered swappedDeclaration ∧
    swappedDeclaration.violation? = none ∧
    swappedDeclaration.resolve ⟨"/staging"⟩ = .ok swappedPlan ∧
    ∃ web api seen,
      ((orderedPlan.secretAssembler fullTree).assembleAll orderedPlan.services
        orderedPlan.deployment orderedPlan.resolved).outcome .empty = (.ok [web, api], seen) ∧
      ((swappedPlan.secretAssembler fullTree).assembleAll swappedPlan.services
        swappedPlan.deployment swappedPlan.resolved).outcome .empty = (.ok [api, web], seen) := by
  have distinct : ∀ e ∈ orderedDeclaration.entries, (e.profiles.map (·.name)).Nodup := by
    decide +kernel
  obtain ⟨accepted, plan', resolved, -, -, -, -, assembled⟩ :=
    Declaration.order_immaterial orderedDeclaration swappedDeclaration ⟨"/staging"⟩ orderedPlan
      ordered_accepted ordered_resolved distinct swapped_reordered
  obtain rfl := Except.ok.inj (swapped_resolved.symm.trans resolved)
  obtain ⟨-, enabled, enabled', on, on', -, all⟩ := assembled .embedded fullTree
  have both : enabledServices orderedPlan.services orderedPlan.resolved =
    .ok [webEntry.subject, apiEntry.subject] := rfl
  have both' : enabledServices swappedPlan.services swappedPlan.resolved =
    .ok [apiEntry.subject, webEntry.subject] := rfl
  obtain rfl := Except.ok.inj (both.symm.trans on)
  obtain rfl := Except.ok.inj (both'.symm.trans on')
  obtain ⟨ms, seen, done⟩ := ordered_assembled
  obtain ⟨manifestsOf, -, rfl, done'⟩ := all .empty ms seen done
  exact ⟨ordered_accepted, ordered_resolved, distinct, swapped_reordered, accepted, resolved, _, _,
    seen, done, done'⟩

end Swapped
end Stevedore
