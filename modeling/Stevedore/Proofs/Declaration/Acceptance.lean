import Stevedore.Declaration.Loading
import Stevedore.Proofs.Resolution

/-!
Which declarations are accepted. The conditions are stated over all entries and all sidecars of a
type at once; a declaration that breaks one is refused, and for the violation that comes first.
-/
namespace Stevedore.Declaration

/-- Entries that are sound by themselves and have names and types of their own. -/
structure Distinct (entries : List (Entry Service)) : Prop where
  sound : ∀ e ∈ entries, Sound e
  names : (entries.map (·.subject.canonicalName)).Nodup
  types : (entries.map (·.subject.serviceType)).Nodup

/-- A name that some container of the pods of a type has already. -/
def Reserved (d : Declaration) (type name : String) : Prop :=
  (∃ e ∈ d.services, e.subject.serviceType = type ∧ e.subject.canonicalName = name) ∨
    ∃ m ∈ d.monitoring, m.subject.service.canonicalName = name

/-- Sidecars of a type that can be told from each other and from the services in their pods. -/
structure Apart (d : Declaration) (type : String) (sidecars : List CustomSidecar) : Prop where
  names : (sidecars.map (·.name)).Nodup
  free : ∀ s ∈ sidecars, ¬ d.Reserved type s.name

structure WellFormed (d : Declaration) : Prop where
  named : Text.isBlankText d.name = false
  entries : Distinct d.entries
  sidecars : ∀ type sidecars, d.environment.sidecars.get? type = some sidecars →
    d.Apart type sidecars

/-- What is wrong with an entry that comes after others; of several faults the first counts. -/
inductive EntryFault (before : List (Entry Service)) (e : Entry Service) : Violation → Prop where
  | blank (blank : Text.isBlankText e.subject.canonicalName = true) :
      EntryFault before e .blankService
  | port (named : Text.isBlankText e.subject.canonicalName = false) (zero : e.settings.port = 0) :
      EntryFault before e (.zeroPort e.subject.canonicalName)
  | name (sound : Sound e)
      (taken : ∃ f ∈ before, f.subject.canonicalName = e.subject.canonicalName) :
      EntryFault before e (.repeatedService e.subject.canonicalName)
  | type (sound : Sound e)
      (fresh : ∀ f ∈ before, f.subject.canonicalName ≠ e.subject.canonicalName)
      (taken : ∃ f ∈ before, f.subject.serviceType = e.subject.serviceType) :
      EntryFault before e (.repeatedType e.subject.serviceType)

/-- What is wrong with a sidecar that comes after others of its type. -/
inductive SidecarFault (d : Declaration) (type : String) (before : List CustomSidecar)
    (s : CustomSidecar) : Violation → Prop where
  | collision (reserved : d.Reserved type s.name) :
      SidecarFault d type before s (.collision s.name type)
  | repeated (free : ¬ d.Reserved type s.name) (taken : ∃ t ∈ before, t.name = s.name) :
      SidecarFault d type before s (.repeatedSidecar s.name type)

/-- The violation before which there is none: of the name, then of the entries as they are declared,
then of the sidecars by ascending type and as they are declared. -/
inductive FirstViolation (d : Declaration) : Violation → Prop where
  | name (blank : Text.isBlankText d.name = true) : FirstViolation d .blankName
  | entry {before after : List (Entry Service)} {e : Entry Service} {v : Violation}
      (named : Text.isBlankText d.name = false) (split : d.entries = before ++ e :: after)
      (earlier : Distinct before) (fault : EntryFault before e v) : FirstViolation d v
  | sidecar {groups others : List (String × List CustomSidecar)} {type : String}
      {before after : List CustomSidecar} {s : CustomSidecar} {v : Violation}
      (named : Text.isBlankText d.name = false) (entries : Distinct d.entries)
      (split : d.environment.sidecars.entries = groups ++ (type, before ++ s :: after) :: others)
      (lower : ∀ g ∈ groups, d.Apart g.1 g.2) (earlier : d.Apart type before)
      (fault : SidecarFault d type before s v) : FirstViolation d v

/-- A scan that checks every item against those before it fails at the first that does not pass. -/
theorem scan_eq_some_iff {α β : Type} (check : List α → α → Option β)
    (scan : List α → List α → Option β) (ended : ∀ seen, scan seen [] = none)
    (next : ∀ seen x rest, scan seen (x :: rest) = (check seen x).or (scan (x :: seen) rest))
    (seen items : List α) (b : β) : scan seen items = some b ↔
      ∃ before x after, items = before ++ x :: after ∧ scan seen before = none ∧
        check (before.reverse ++ seen) x = some b := by
  induction items generalizing seen with
  | nil => simp [ended]
  | cons y rest ih =>
    rw [next, Option.or_eq_some_iff, ih]
    constructor
    · rintro (here | ⟨fine, before, x, after, rfl, earlier, here⟩)
      · exact ⟨[], y, rest, rfl, ended seen, here⟩
      · refine ⟨y :: before, x, after, rfl, ?_, by simpa using here⟩
        rw [next, fine, earlier, Option.or_none]
    · rintro ⟨before, x, after, split, earlier, here⟩
      cases before with
      | nil =>
        obtain ⟨rfl, rfl⟩ := List.cons.inj split
        exact .inl here
      | cons z before =>
        obtain ⟨rfl, rfl⟩ := List.cons.inj split
        rw [next] at earlier
        obtain ⟨fine, earlier⟩ := Option.or_eq_none_iff.mp earlier
        exact .inr ⟨fine, before, x, after, rfl, earlier, by simpa using here⟩

section Entries
variable {entries before : List (Entry Service)} {e : Entry Service} {v : Violation}

theorem distinct_iff : entriesViolation? [] [] entries = none ↔ Distinct entries := by
  rw [entriesViolation?_eq_none_iff]
  constructor
  · rintro ⟨each, names, types⟩
    exact ⟨fun e member => (each e member).1, names, types⟩
  · rintro ⟨sound, names, types⟩
    refine ⟨fun e member => ⟨sound e member, ?_, ?_⟩, names, types⟩
    · exact List.not_mem_nil
    · exact List.not_mem_nil

-- both checks take what came before with the last item first
def checkEntry (seen : List (Entry Service)) (e : Entry Service) : Option Violation :=
  entryViolation? (seen.map (·.subject.canonicalName)) (seen.map (·.subject.serviceType)) e

theorem checkEntry_eq_some_iff : checkEntry before.reverse e = some v ↔ EntryFault before e v := by
  unfold checkEntry entryViolation?
  dsimp only
  simp only [List.mem_reverse, List.mem_map]
  constructor
  · intro found
    split_ifs at found with blank zero name type
    · obtain rfl := Option.some.inj found
      exact .blank blank
    · obtain rfl := Option.some.inj found
      exact .port (by simpa using blank) zero
    · obtain rfl := Option.some.inj found
      exact .name ⟨by simpa using blank, zero⟩ name
    · obtain rfl := Option.some.inj found
      exact .type ⟨by simpa using blank, zero⟩ (fun f member same => name ⟨f, member, same⟩) type
  · intro fault
    cases fault with
    | blank blank => rw [if_pos blank]
    | port named zero => rw [if_neg (by simp [named]), if_pos zero]
    | name sound taken => rw [if_neg (by simp [sound.1]), if_neg sound.2, if_pos taken]
    | type sound fresh taken =>
      have untaken : ¬ ∃ f ∈ before, f.subject.canonicalName = e.subject.canonicalName := by
        rintro ⟨f, member, same⟩
        exact fresh f member same
      rw [if_neg (by simp [sound.1]), if_neg sound.2, if_neg untaken, if_pos taken]

theorem firstEntry_iff : entriesViolation? [] [] entries = some v ↔ ∃ before e after,
    entries = before ++ e :: after ∧ Distinct before ∧ EntryFault before e v := by
  have first := scan_eq_some_iff checkEntry (fun seen entries => entriesViolation?
    (seen.map (·.subject.canonicalName)) (seen.map (·.subject.serviceType)) entries)
    (fun _ => rfl) (fun _ _ _ => rfl) [] entries v
  simpa only [List.append_nil, List.map_nil, distinct_iff, checkEntry_eq_some_iff] using first

end Entries

section Sidecars
variable {d : Declaration} {type : String} {reserved seen : List String}
  {sidecars before : List CustomSidecar} {s : CustomSidecar} {v : Violation}

theorem sidecarsViolation?_cons (rest : List CustomSidecar) :
    sidecarsViolation? reserved type seen (s :: rest) =
      (sidecarsViolation? reserved type seen [s]).or
        (sidecarsViolation? reserved type (s.name :: seen) rest) := by
  simp only [sidecarsViolation?]
  split_ifs <;> rfl

theorem apart_iff :
    sidecarsViolation? (d.reservedNames type) type [] sidecars = none ↔ d.Apart type sidecars := by
  rw [sidecarsViolation?_eq_none_iff]
  constructor
  · rintro ⟨each, names⟩
    exact ⟨names, fun s member reserved => (each s member).1 (mem_reservedNames.mpr reserved)⟩
  · rintro ⟨names, free⟩
    refine ⟨fun s member => ⟨fun reserved => ?_, List.not_mem_nil⟩, names⟩
    exact free s member (mem_reservedNames.mp reserved)

def checkSidecar (d : Declaration) (type : String) (seen : List CustomSidecar) (s : CustomSidecar) :
    Option Violation :=
  sidecarsViolation? (d.reservedNames type) type (seen.map (·.name)) [s]

theorem checkSidecar_eq_some_iff :
    d.checkSidecar type before.reverse s = some v ↔ SidecarFault d type before s v := by
  have reserved : s.name ∈ d.reservedNames type ↔ d.Reserved type s.name := mem_reservedNames
  simp only [checkSidecar, sidecarsViolation?, List.mem_reverse, List.mem_map]
  constructor
  · intro found
    split_ifs at found with taken again
    · obtain rfl := Option.some.inj found
      exact .collision (reserved.mp taken)
    · obtain rfl := Option.some.inj found
      exact .repeated (fun held => taken (reserved.mpr held)) again
  · intro fault
    cases fault with
    | collision taken => rw [if_pos (reserved.mpr taken)]
    | repeated free again => rw [if_neg (fun held => free (reserved.mp held)), if_pos again]

theorem firstSidecar_iff : sidecarsViolation? (d.reservedNames type) type [] sidecars = some v ↔
    ∃ before s after, sidecars = before ++ s :: after ∧ d.Apart type before ∧
      SidecarFault d type before s v := by
  have first := scan_eq_some_iff (d.checkSidecar type) (fun seen sidecars =>
    sidecarsViolation? (d.reservedNames type) type (seen.map (·.name)) sidecars)
    (fun _ => rfl) (fun _ _ rest => sidecarsViolation?_cons rest) [] sidecars v
  simpa only [List.append_nil, List.map_nil, apart_iff, checkSidecar_eq_some_iff] using first

end Sidecars

section Validate
variable {d : Declaration} {v : Violation}

theorem wellFormed_iff : d.violation? = none ↔ d.WellFormed := by
  rw [violation?_eq_none_iff]
  constructor
  · rintro ⟨named, entries, sidecars⟩
    refine ⟨named, distinct_iff.mp entries, fun type own found => ?_⟩
    exact apart_iff.mp (sidecars type own found)
  · rintro ⟨named, entries, sidecars⟩
    refine ⟨named, distinct_iff.mpr entries, fun type own found => ?_⟩
    exact apart_iff.mpr (sidecars type own found)

theorem firstGroup_iff :
    (d.environment.sidecars.entries.findSome? fun (type, sidecars) =>
      sidecarsViolation? (d.reservedNames type) type [] sidecars) = some v ↔
      ∃ groups type before s after others,
        d.environment.sidecars.entries = groups ++ (type, before ++ s :: after) :: others ∧
        (∀ g ∈ groups, d.Apart g.1 g.2) ∧ d.Apart type before ∧ SidecarFault d type before s v := by
  rw [List.findSome?_eq_some_iff]
  constructor
  · rintro ⟨groups, ⟨type, sidecars⟩, others, split, here, lower⟩
    obtain ⟨before, s, after, rfl, earlier, fault⟩ := firstSidecar_iff.mp here
    exact ⟨groups, type, before, s, after, others, split,
      fun g member => apart_iff.mp (lower g member), earlier, fault⟩
  · rintro ⟨groups, type, before, s, after, others, split, lower, earlier, fault⟩
    refine ⟨groups, (type, before ++ s :: after), others, split, ?_, fun g member => ?_⟩
    · exact firstSidecar_iff.mpr ⟨before, s, after, rfl, earlier, fault⟩
    · exact apart_iff.mpr (lower g member)

theorem firstViolation_iff : d.violation? = some v ↔ FirstViolation d v := by
  unfold violation?
  split
  · next blank =>
    constructor
    · rintro ⟨⟩
      exact .name blank
    · intro first
      cases first with
      | name => rfl
      | entry named => simp [named] at blank
      | sidecar named => simp [named] at blank
  · next solid =>
    have named : Text.isBlankText d.name = false := by simpa using solid
    rw [Option.or_eq_some_iff, firstEntry_iff, distinct_iff, firstGroup_iff]
    constructor
    · rintro (⟨before, e, after, split, earlier, fault⟩ |
        ⟨entries, groups, type, before, s, after, others, split, lower, earlier, fault⟩)
      · exact .entry named split earlier fault
      · exact .sidecar named entries split lower earlier fault
    · intro first
      cases first with
      | name blank => exact absurd blank solid
      | entry _ split earlier fault => exact .inl ⟨_, _, _, split, earlier, fault⟩
      | sidecar _ entries split lower earlier fault =>
        exact .inr ⟨entries, _, _, _, _, _, _, split, lower, earlier, fault⟩

/-- The well-formed declarations are accepted, and every other one is refused as invalid for its
first violation. -/
theorem validate_accepts_iff (d : Declaration) : (d.validate = .ok () ↔ d.WellFormed) ∧
    ∀ error, d.validate = .error error ↔ ∃ v, FirstViolation d v ∧ error = .invalid v := by
  rw [← wellFormed_iff, validate]
  simp only [← firstViolation_iff]
  cases d.violation? with
  | none => simp
  | some v => simp [eq_comm]

end Validate
end Stevedore.Declaration
