import Stevedore.ConfigSource

/-! Collections without repeated ids: which ids they hold after each operation. -/
namespace Stevedore

namespace ConfigSource
variable {sources : List ConfigSource} {id : String} {v : ConfigSource}

theorem find?_eq_none_iff : sources.find? (·.id = id) = none ↔ id ∉ sources.map (·.id) := by
  simp

theorem exists_find? (held : id ∈ sources.map (·.id)) :
    ∃ v, sources.find? (·.id = id) = some v := by
  have found : sources.find? (·.id = id) ≠ none := fun none_ => find?_eq_none_iff.mp none_ held
  exact Option.ne_none_iff_exists'.mp found

theorem id_of_find? (found : sources.find? (·.id = id) = some v) : v.id = id := by
  simpa using List.find?_some found

end ConfigSource

namespace UniqueSources

def ids (u : UniqueSources) : List String := u.sources.map (·.id)

/-- What was seen is what is held. -/
def Coherent (u : UniqueSources) : Prop := ∀ id, id ∈ u.seen ↔ id ∈ u.ids

theorem empty_coherent : Coherent empty := fun _ => Iff.rfl

theorem push_of_seen {u : UniqueSources} {s : ConfigSource} (seen : s.id ∈ u.seen) :
    (u.push s).1 = u := by simp [push, seen]

theorem push_of_new {u : UniqueSources} {s : ConfigSource} (new : s.id ∉ u.seen) :
    (u.push s).1 = ⟨s.id :: u.seen, u.sources ++ [s]⟩ := by simp [push, new]

theorem push_coherent {u : UniqueSources} (coherent : u.Coherent) (s : ConfigSource) :
    (u.push s).1.Coherent := by
  intro id
  by_cases seen : s.id ∈ u.seen
  · rw [push_of_seen seen]
    exact coherent id
  · rw [push_of_new seen]
    simp only [ids, List.map_append, List.map_cons, List.map_nil, List.mem_cons, List.mem_append,
      List.not_mem_nil, or_false]
    rw [coherent id, or_comm]
    rfl

theorem mem_ids_push {u : UniqueSources} (coherent : u.Coherent) (s : ConfigSource) (id : String) :
    id ∈ (u.push s).1.ids ↔ id ∈ u.ids ∨ id = s.id := by
  by_cases seen : s.id ∈ u.seen
  · rw [push_of_seen seen]
    have held : s.id ∈ u.ids := (coherent _).mp seen
    constructor
    · exact Or.inl
    · rintro (member | rfl)
      · exact member
      · exact held
  · simp [push_of_new seen, ids]

theorem extend_cons (u : UniqueSources) (s : ConfigSource) (rest : List ConfigSource) :
    u.extend (s :: rest) = (u.push s).1.extend rest := rfl

theorem extend_append (u : UniqueSources) (first second : List ConfigSource) :
    u.extend (first ++ second) = (u.extend first).extend second := List.foldl_append

theorem extend_coherent {u : UniqueSources} (coherent : u.Coherent) (sources : List ConfigSource) :
    (u.extend sources).Coherent := by
  induction sources generalizing u with
  | nil => exact coherent
  | cons s rest ih => exact ih (push_coherent coherent s)

/-- No id is lost: a collection holds the ids it held and those that were offered. -/
theorem mem_ids_extend {u : UniqueSources} (coherent : u.Coherent) (sources : List ConfigSource)
    (id : String) : id ∈ (u.extend sources).ids ↔ id ∈ u.ids ∨ id ∈ sources.map (·.id) := by
  induction sources generalizing u with
  | nil => simp [extend]
  | cons s rest ih =>
    rw [extend_cons, ih (push_coherent coherent s), mem_ids_push coherent]
    simp [or_assoc]

theorem sources_push (u : UniqueSources) (s : ConfigSource) :
    (u.push s).1.sources = if s.id ∈ u.seen then u.sources else u.sources ++ [s] := by
  split
  · next seen => rw [push_of_seen seen]
  · next new => rw [push_of_new new]

/-- What is held stays in its place, and some of what is offered follows in order. -/
theorem sources_extend (u : UniqueSources) (sources : List ConfigSource) :
    ∃ kept, kept.Sublist sources ∧ (u.extend sources).sources = u.sources ++ kept := by
  induction sources generalizing u with
  | nil => exact ⟨[], List.Sublist.refl _, (List.append_nil _).symm⟩
  | cons s rest ih =>
    obtain ⟨kept, sub, held⟩ := ih (u.push s).1
    rw [sources_push] at held
    split at held
    · exact ⟨kept, sub.cons s, held⟩
    · exact ⟨s :: kept, sub.cons_cons s, by rw [extend_cons, held, List.append_assoc]; rfl⟩

theorem mem_of_mem_extend {u : UniqueSources} {sources : List ConfigSource} {v : ConfigSource}
    (member : v ∈ (u.extend sources).sources) : v ∈ u.sources ∨ v ∈ sources := by
  obtain ⟨kept, sub, held⟩ := sources_extend u sources
  rw [held, List.mem_append] at member
  exact member.imp_right fun inside => sub.subset inside

theorem mem_of_mem_ofList {sources : List ConfigSource} {v : ConfigSource}
    (member : v ∈ (ofList sources).sources) : v ∈ sources := by
  rcases mem_of_mem_extend member with none_ | offered
  · contradiction
  · exact offered

/-- Sources with ids of their own are all kept. -/
theorem sources_extend_of_distinct {u : UniqueSources} (coherent : u.Coherent)
    {sources : List ConfigSource} (distinct : ((u.sources ++ sources).map (·.id)).Nodup) :
    (u.extend sources).sources = u.sources ++ sources := by
  induction sources generalizing u with
  | nil => exact (List.append_nil _).symm
  | cons s rest ih =>
    have new : s.id ∉ u.seen := by
      intro seen
      have held : s.id ∈ u.sources.map (·.id) := (coherent s.id).mp seen
      rw [List.map_append, List.nodup_append] at distinct
      exact distinct.2.2 _ held _ List.mem_cons_self rfl
    have after : (u.push s).1.sources = u.sources ++ [s] := by rw [sources_push, if_neg new]
    rw [extend_cons, ih (push_coherent coherent s), after, List.append_assoc]
    · rfl
    · rwa [after, List.append_assoc]

theorem find?_push {u : UniqueSources} (coherent : u.Coherent) (s : ConfigSource) (id : String) :
    (u.push s).1.sources.find? (·.id = id) =
      (u.sources.find? (·.id = id)).or ([s].find? (·.id = id)) := by
  rw [sources_push]
  split
  · next seen =>
    obtain ⟨t, member, same⟩ := List.mem_map.mp ((coherent s.id).mp seen)
    by_cases mine : s.id = id
    · have found : (u.sources.find? (·.id = id)).isSome :=
        List.find?_isSome.mpr ⟨t, member, decide_eq_true (same.trans mine)⟩
      rw [Option.or_of_isSome found]
    · simp [mine]
  · rw [List.find?_append]

/-- Under an id stands the first source of that id, be it held before or offered. -/
theorem find?_extend {u : UniqueSources} (coherent : u.Coherent) (sources : List ConfigSource)
    (id : String) : (u.extend sources).sources.find? (·.id = id) =
      (u.sources ++ sources).find? (·.id = id) := by
  induction sources generalizing u with
  | nil => rw [List.append_nil]; rfl
  | cons s rest ih =>
    rw [extend_cons, ih (push_coherent coherent s), List.find?_append, find?_push coherent,
      Option.or_assoc, ← List.find?_append, List.singleton_append, ← List.find?_append]

theorem ofList_coherent (sources : List ConfigSource) : (ofList sources).Coherent :=
  extend_coherent empty_coherent sources

theorem find?_ofList (sources : List ConfigSource) (id : String) :
    (ofList sources).sources.find? (·.id = id) = sources.find? (·.id = id) :=
  find?_extend empty_coherent sources id

theorem mem_ids_ofList (sources : List ConfigSource) (id : String) :
    id ∈ (ofList sources).ids ↔ id ∈ sources.map (·.id) := by
  rw [ofList, mem_ids_extend empty_coherent]
  simp [ids, empty]

theorem nodup_ids_push {u : UniqueSources} (coherent : u.Coherent) (distinct : u.ids.Nodup)
    (s : ConfigSource) : (u.push s).1.ids.Nodup := by
  by_cases seen : s.id ∈ u.seen
  · rwa [push_of_seen seen]
  · have new : s.id ∉ u.ids := fun held => seen ((coherent s.id).mpr held)
    rw [push_of_new seen, ids, List.map_append, List.nodup_append]
    refine ⟨distinct, List.pairwise_singleton _ _, fun id held other mine same => ?_⟩
    rw [same, List.mem_singleton.mp mine] at held
    exact new held

theorem nodup_ids_extend {u : UniqueSources} (coherent : u.Coherent) (distinct : u.ids.Nodup)
    (sources : List ConfigSource) : (u.extend sources).ids.Nodup := by
  induction sources generalizing u with
  | nil => exact distinct
  | cons s rest ih => exact ih (push_coherent coherent s) (nodup_ids_push coherent distinct s)

theorem nodup_ids_ofList (sources : List ConfigSource) : (ofList sources).ids.Nodup :=
  nodup_ids_extend empty_coherent List.nodup_nil sources

end UniqueSources
end Stevedore
