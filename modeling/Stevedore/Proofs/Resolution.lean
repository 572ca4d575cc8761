import Stevedore.Declaration.Resolution
import Stevedore.Declaration.Violation
import Stevedore.Proofs.Completion

/-! What a declaration without violations resolves to: every entry has a service type of its own, so
that under each type stand the profiles of one entry. -/
namespace Stevedore

namespace Profile

/-- Profiles by name; of several with one name the last is kept. -/
def byName (profiles : List Profile) : Table Profile :=
  profiles.foldl (fun t p => t.insert p.name p) .empty

/-- No later profile of the list has the name of this one. -/
def LastIn (p : Profile) (profiles : List Profile) : Prop :=
  profiles.reverse.find? (fun q => q.name = p.name) = some p

instance (p : Profile) (profiles : List Profile) : Decidable (p.LastIn profiles) :=
  inferInstanceAs (Decidable (_ = _))

/-- Every profile stands under its own name. -/
def Keyed (t : Table Profile) : Prop := ∀ name p, t.get? name = some p → p.name = name

theorem keyed_empty : Keyed .empty := by
  intro name p found
  rw [Table.get?_empty] at found
  contradiction

theorem keyed_insert {t : Table Profile} (keyed : Keyed t) (p : Profile) :
    Keyed (t.insert p.name p) := by
  intro name q found
  rw [Table.get?_insert] at found
  split at found
  · next same =>
    obtain rfl := Option.some.inj found
    exact same.symm
  · exact keyed name q found

theorem keyed_foldl_insert {t : Table Profile} (keyed : Keyed t) (profiles : List Profile) :
    Keyed (profiles.foldl (fun t p => t.insert p.name p) t) := by
  induction profiles generalizing t with
  | nil => exact keyed
  | cons p rest ih => exact ih (keyed_insert keyed p)

theorem get?_foldl_insert (profiles : List Profile) (t : Table Profile) (name : String) :
    (profiles.foldl (fun t p => t.insert p.name p) t).get? name =
      (profiles.reverse.find? (fun q => q.name = name)).or (t.get? name) := by
  induction profiles generalizing t with
  | nil => simp
  | cons p rest ih =>
    rw [List.foldl_cons, ih, Table.get?_insert, List.reverse_cons, List.find?_append,
      Option.or_assoc]
    by_cases same : p.name = name
    · simp [same]
    · simp [same, Ne.symm same]

theorem get?_byName (profiles : List Profile) (name : String) :
    (byName profiles).get? name = profiles.reverse.find? (fun q => q.name = name) := by
  rw [byName, get?_foldl_insert, Table.get?_empty, Option.or_none]

end Profile

namespace Resolved

/-- The settings and the profiles under a type. -/
def under (r : Resolved) (type : String) : Option Settings × Option (Table Profile) :=
  (r.settings.get? type, r.profiles.get? type)

theorem eq_of_under {r r' : Resolved} (same : ∀ type, r.under type = r'.under type) : r = r' := by
  obtain ⟨settings, profiles⟩ := r
  obtain ⟨settings', profiles'⟩ := r'
  obtain rfl : settings = settings' := Table.ext_get? fun type => congrArg Prod.fst (same type)
  obtain rfl : profiles = profiles' := Table.ext_get? fun type => congrArg Prod.snd (same type)
  rfl

theorem profilesOf_addProfile (r : Resolved) (type : String) (p : Profile) (other : String) :
    (r.addProfile type p).profilesOf other =
      if other = type then (r.profilesOf type).insert p.name p else r.profilesOf other := by
  simp only [addProfile, profilesOf, Table.get?_modify]
  split
  · simp
  · rfl

theorem get?_addProfiles (r : Resolved) (type : String) (profiles : List Profile) (other : String) :
    (profiles.foldl (fun r p => r.addProfile type p) r).profiles.get? other =
      if other = type ∧ profiles ≠ [] then
        some (profiles.foldl (fun t p => t.insert p.name p) (r.profilesOf type))
      else r.profiles.get? other := by
  induction profiles generalizing r with
  | nil => simp
  | cons p rest ih =>
    rw [List.foldl_cons, ih, profilesOf_addProfile, if_pos rfl, List.foldl_cons]
    by_cases same : other = type
    · cases rest with
      | nil => simp [same, addProfile, Table.get?_modify, profilesOf]
      | cons => simp [same]
    · simp [same, addProfile, Table.get?_modify]

theorem settings_addProfiles (r : Resolved) (type : String) (profiles : List Profile) :
    (profiles.foldl (fun r p => r.addProfile type p) r).settings = r.settings := by
  induction profiles generalizing r with
  | nil => rfl
  | cons p rest ih => exact ih (r.addProfile type p)

end Resolved

namespace Declaration

/-- What an entry adds under its type to what stands there. -/
def adds (d : Declaration) (e : Entry Service)
    (before : Option Settings × Option (Table Profile)) :
    Option Settings × Option (Table Profile) :=
  ((d.completeSettings e).toOption,
    if e.profiles = [] then before.2
    else some (e.profiles.foldl (fun t p => t.insert p.name p) (before.2.getD .empty)))

theorem under_addEntry {d : Declaration} {r r' : Resolved} {e : Entry Service}
    (ok : d.addEntry r e = .ok r') (type : String) : r'.under type =
      if type = e.subject.serviceType then d.adds e (r.under type) else r.under type := by
  obtain ⟨settings, completed, made⟩ := except_bind_ok.mp ok
  obtain rfl := Except.ok.inj made
  rw [Resolved.under, Resolved.settings_addProfiles, Resolved.get?_addProfiles, adds, completed,
    Resolved.addSettings, Table.get?_insert]
  by_cases own : type = e.subject.serviceType
  · by_cases none_ : e.profiles = []
    · simp [own, none_, Resolved.under, Except.toOption]
    · simp [own, none_, Resolved.under, Resolved.profilesOf, Except.toOption]
  · simp [own, Resolved.under]

/-- Entries of distinct types leave each other alone: each adds to what stood under its own type,
and other types stay. -/
theorem under_addEntries {d : Declaration} {entries : List (Entry Service)} {r r' : Resolved}
    (distinct : (entries.map (·.subject.serviceType)).Nodup)
    (ok : entries.foldlM d.addEntry r = .ok r') :
    (∀ e ∈ entries, r'.under e.subject.serviceType = d.adds e (r.under e.subject.serviceType)) ∧
    ∀ type ∉ entries.map (·.subject.serviceType), r'.under type = r.under type := by
  induction entries generalizing r with
  | nil =>
    obtain rfl := Except.ok.inj ok
    simp
  | cons e rest ih =>
    rw [List.foldlM_cons] at ok
    obtain ⟨next, added, ok⟩ := except_bind_ok.mp ok
    obtain ⟨absent, distinct⟩ := List.nodup_cons.mp distinct
    obtain ⟨present, kept⟩ := ih distinct ok
    constructor
    · intro f member
      rcases List.mem_cons.mp member with rfl | later
      · rw [kept _ absent, under_addEntry added, if_pos rfl]
      · have different : f.subject.serviceType ≠ e.subject.serviceType := by
          intro same
          exact absent (List.mem_map.mpr ⟨f, later, same⟩)
        rw [present f later, under_addEntry added, if_neg different]
    · intro type missing
      rw [List.map_cons, List.mem_cons, not_or] at missing
      rw [kept type missing.2, under_addEntry added, if_neg missing.1]

theorem failure?_addEntry (d : Declaration) (r : Resolved) (e : Entry Service) :
    failure? (d.addEntry r e) = failure? (d.completeSettings e) := by
  unfold addEntry
  cases d.completeSettings e <;> rfl

/-- A plan holds what the entries add to nothing, and the rest as it is declared. -/
theorem resolve_ok_iff {d : Declaration} {root : Path} {plan : Plan} :
    d.resolve root = .ok plan ↔ d.entries.foldlM d.addEntry .empty = .ok plan.resolved ∧
      plan.deployment = ⟨d.account, ⟨d.name, d.version, d.environment⟩, d.stagingRoot.getD root⟩ ∧
      plan.services = d.services.map (·.subject) ∧
      plan.monitoring = d.monitoring.map (·.subject) := by
  rw [resolve, except_bind_ok]
  constructor
  · rintro ⟨resolved, added, made⟩
    obtain rfl := Except.ok.inj made
    exact ⟨added, rfl, rfl, rfl⟩
  · rintro ⟨added, deployment, services, monitoring⟩
    refine ⟨plan.resolved, added, ?_⟩
    rw [← services, ← monitoring, ← deployment]
    rfl

/-- A declaration resolves when the settings of all entries can be completed. -/
theorem resolves_iff {d : Declaration} {root : Path} : (∃ plan, d.resolve root = .ok plan) ↔
    ∀ e ∈ d.entries, failure? (d.completeSettings e) = none := by
  have fold : failure? (d.entries.foldlM d.addEntry .empty) =
      d.entries.findSome? fun e => failure? (d.completeSettings e) :=
    failure?_foldlM (failure?_addEntry d) d.entries .empty
  rw [← List.findSome?_eq_none_iff, ← fold, failure?_eq_none_iff]
  constructor
  · rintro ⟨plan, ok⟩
    exact ⟨plan.resolved, (resolve_ok_iff.mp ok).1⟩
  · rintro ⟨resolved, added⟩
    exact ⟨⟨_, resolved, _, _⟩, resolve_ok_iff.mpr ⟨added, rfl, rfl, rfl⟩⟩

/-- What an entry is accepted for by itself. -/
def Sound (e : Entry Service) : Prop :=
  Text.isBlankText e.subject.canonicalName = false ∧ e.settings.port ≠ 0

theorem entryViolation?_eq_none_iff {names types : List String} {e : Entry Service} :
    entryViolation? names types e = none ↔
      Sound e ∧ e.subject.canonicalName ∉ names ∧ e.subject.serviceType ∉ types := by
  unfold entryViolation? Sound
  dsimp only
  split_ifs <;> simp_all

/-- Entries are accepted if each is, and they have names and types of their own, which stand for
nothing before them. -/
theorem entriesViolation?_eq_none_iff {names types : List String}
    {entries : List (Entry Service)} :
    entriesViolation? names types entries = none ↔
      (∀ e ∈ entries, Sound e ∧ e.subject.canonicalName ∉ names ∧ e.subject.serviceType ∉ types) ∧
      (entries.map (·.subject.canonicalName)).Nodup ∧
      (entries.map (·.subject.serviceType)).Nodup := by
  induction entries generalizing names types with
  | nil => simp [entriesViolation?]
  | cons e rest ih =>
    rw [entriesViolation?, Option.or_eq_none_iff, entryViolation?_eq_none_iff, ih]
    simp only [List.mem_cons, not_or, List.map_cons, List.nodup_cons, List.mem_map, not_exists,
      not_and, forall_eq_or_imp]
    constructor
    · rintro ⟨first, others, names_, types_⟩
      refine ⟨⟨first, fun f later => ?_⟩, ⟨fun f later => ?_, names_⟩, fun f later => ?_, types_⟩
      · exact ⟨(others f later).1, (others f later).2.1.2, (others f later).2.2.2⟩
      · exact (others f later).2.1.1
      · exact (others f later).2.2.1
    · rintro ⟨⟨first, others⟩, ⟨name, names_⟩, type, types_⟩
      refine ⟨first, fun f later => ⟨(others f later).1, ?_, ?_⟩, names_, types_⟩
      · exact ⟨name f later, (others f later).2.1⟩
      · exact ⟨type f later, (others f later).2.2⟩

/-- Accepted entries have names and types of their own. -/
theorem distinct_entries {names types : List String} {entries : List (Entry Service)}
    (accepted : entriesViolation? names types entries = none) :
    (∀ e ∈ entries, e.subject.canonicalName ∉ names ∧ e.subject.serviceType ∉ types) ∧
      (entries.map (·.subject.canonicalName)).Nodup ∧
      (entries.map (·.subject.serviceType)).Nodup := by
  obtain ⟨each, distinct⟩ := entriesViolation?_eq_none_iff.mp accepted
  exact ⟨fun e member => (each e member).2, distinct⟩

theorem violation?_eq_none_iff {d : Declaration} : d.violation? = none ↔
    Text.isBlankText d.name = false ∧ entriesViolation? [] [] d.entries = none ∧
      ∀ type sidecars, d.environment.sidecars.get? type = some sidecars →
        sidecarsViolation? (d.reservedNames type) type [] sidecars = none := by
  unfold violation?
  split
  · next blank => simp [blank]
  · next solid =>
    simp [solid, Option.or_eq_none_iff, List.findSome?_eq_none_iff, Table.mem_entries_iff]

theorem entries_accepted {d : Declaration} (accepted : d.violation? = none) :
    entriesViolation? [] [] d.entries = none := by
  rw [violation?] at accepted
  split at accepted
  · contradiction
  · exact (Option.or_eq_none_iff.mp accepted).1

theorem sidecars_accepted {d : Declaration} (accepted : d.violation? = none) (type : String) :
    sidecarsViolation? (d.reservedNames type) type [] (d.environment.sidecarsFor type) = none := by
  rw [violation?] at accepted
  split at accepted
  · contradiction
  · have each := List.findSome?_eq_none_iff.mp (Option.or_eq_none_iff.mp accepted).2
    unfold Environment.sidecarsFor
    cases found : d.environment.sidecars.get? type with
    | none => rfl
    | some sidecars => exact each (type, sidecars) (Table.mem_entries_iff.mpr found)

theorem sidecarsViolation?_eq_none_iff {reserved seen : List String} {type : String}
    {sidecars : List CustomSidecar} : sidecarsViolation? reserved type seen sidecars = none ↔
      (∀ s ∈ sidecars, s.name ∉ reserved ∧ s.name ∉ seen) ∧ (sidecars.map (·.name)).Nodup := by
  induction sidecars generalizing seen with
  | nil => simp [sidecarsViolation?]
  | cons s rest ih =>
    rw [sidecarsViolation?]
    split_ifs with taken repeated
    · simp [taken]
    · simp [repeated]
    · rw [ih]
      simp only [List.mem_cons, not_or, List.map_cons, List.nodup_cons, List.mem_map, not_exists,
        not_and, forall_eq_or_imp]
      constructor
      · rintro ⟨fresh, distinct⟩
        refine ⟨⟨⟨taken, repeated⟩, fun t later => ?_⟩, fun t later => ?_, distinct⟩
        · exact ⟨(fresh t later).1, (fresh t later).2.2⟩
        · exact (fresh t later).2.1
      · rintro ⟨⟨-, fresh⟩, own, distinct⟩
        refine ⟨fun t later => ?_, distinct⟩
        exact ⟨(fresh t later).1, own t later, (fresh t later).2⟩

/-- Accepted sidecars have names of their own, which are none of those reserved. -/
theorem distinct_sidecars {reserved seen : List String} {type : String}
    {sidecars : List CustomSidecar}
    (accepted : sidecarsViolation? reserved type seen sidecars = none) :
    (∀ s ∈ sidecars, s.name ∉ reserved ∧ s.name ∉ seen) ∧ (sidecars.map (·.name)).Nodup :=
  sidecarsViolation?_eq_none_iff.mp accepted

/-- Every declared name is reserved, in the pods of its own type or, for the monitoring sidecar, in
all pods. -/
theorem mem_reservedNames {d : Declaration} {type name : String} :
    name ∈ d.reservedNames type ↔
      (∃ e ∈ d.services, e.subject.serviceType = type ∧ e.subject.canonicalName = name) ∨
        ∃ m ∈ d.monitoring, m.subject.service.canonicalName = name := by
  simp [reservedNames, and_assoc]

theorem mem_entries_monitoring {d : Declaration} {m : Entry SidecarService}
    (monitored : d.monitoring = some m) : m.map SidecarService.service ∈ d.entries := by
  simp [entries, monitored]

section Accepted
variable {d : Declaration} {root : Path} {plan : Plan} {e : Entry Service}

/-- Under the type of an entry stands what it adds to nothing, and under other types nothing. -/
theorem under_resolved (accepted : d.violation? = none) (ok : d.resolve root = .ok plan) :
    (∀ e ∈ d.entries, plan.resolved.under e.subject.serviceType = d.adds e (none, none)) ∧
      ∀ type ∉ d.entries.map (·.subject.serviceType), plan.resolved.under type = (none, none) :=
  under_addEntries (distinct_entries (entries_accepted accepted)).2.2 (resolve_ok_iff.mp ok).1

/-- Under the type of an entry stand its own profiles by name, and nothing else. -/
theorem profilesOf_resolved (accepted : d.violation? = none) (ok : d.resolve root = .ok plan)
    (declared : e ∈ d.entries) :
    plan.resolved.profilesOf e.subject.serviceType = Profile.byName e.profiles := by
  have own := congrArg Prod.snd ((under_resolved accepted ok).1 e declared)
  change plan.resolved.profiles.get? e.subject.serviceType = (d.adds e (none, none)).2 at own
  rw [Resolved.profilesOf, own, adds]
  by_cases none_ : e.profiles = []
  · rw [if_pos none_, none_]
    rfl
  · rw [if_neg none_]
    rfl

/-- Under the type of an entry stand its own settings, completed. -/
theorem settings_resolved (accepted : d.violation? = none) (ok : d.resolve root = .ok plan)
    (declared : e ∈ d.entries) : ∃ settings, d.completeSettings e = .ok settings ∧
      plan.resolved.settingsOf? e.subject = some settings := by
  obtain ⟨settings, completed⟩ := failure?_eq_none_iff.mp (resolves_iff.mp ⟨plan, ok⟩ e declared)
  have own := congrArg Prod.fst ((under_resolved accepted ok).1 e declared)
  refine ⟨settings, completed, own.trans ?_⟩
  rw [adds, completed]
  rfl

theorem exists_entry_of_service (ok : d.resolve root = .ok plan) {s : Service}
    (member : s ∈ plan.services) : ∃ e ∈ d.entries, e.subject = s := by
  rw [(resolve_ok_iff.mp ok).2.2.1] at member
  obtain ⟨e, held, same⟩ := List.mem_map.mp member
  exact ⟨e, List.mem_append_left _ held, same⟩

theorem services_distinct (accepted : d.violation? = none) (ok : d.resolve root = .ok plan) :
    (plan.services.map (·.canonicalName)).Nodup := by
  have all := (distinct_entries (entries_accepted accepted)).2.1
  rw [entries, List.map_append] at all
  rw [(resolve_ok_iff.mp ok).2.2.1, List.map_map]
  exact (List.nodup_append.mp all).1

end Accepted

end Declaration
end Stevedore
