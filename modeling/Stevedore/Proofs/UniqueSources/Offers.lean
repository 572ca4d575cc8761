import Mathlib.Data.List.Induction
import Stevedore.Pod.Builder
import Stevedore.Proofs.UniqueSources

/-!
What a collection without repeated ids holds after any offers. It holds the first source of every id,
in the order of the offers, and it does not matter whether they came one by one, in groups or all at
once.
-/
namespace Stevedore

namespace ConfigSource

/-- The sources that come before all others of their id, in order. -/
def firsts (offered : List ConfigSource) : List ConfigSource :=
  (offered.zipIdx.filter fun (s, i) => s.id ∉ (offered.take i).map (·.id)).map (·.1)

theorem firsts_sublist (offered : List ConfigSource) : (firsts offered).Sublist offered := by
  have part : (firsts offered).Sublist (offered.zipIdx.map (·.1)) := List.filter_sublist.map _
  have whole : offered.zipIdx.map (·.1) = offered := List.zipIdx_map_fst 0 offered
  rwa [whole] at part

/-- One more source is a first one if none of its id came before it. -/
theorem firsts_snoc (offered : List ConfigSource) (s : ConfigSource) :
    firsts (offered ++ [s]) =
      if s.id ∈ offered.map (·.id) then firsts offered else firsts offered ++ [s] := by
  have before : offered.zipIdx.filter
        (fun (t, i) => t.id ∉ ((offered ++ [s]).take i).map (·.id)) =
      offered.zipIdx.filter fun (t, i) => t.id ∉ (offered.take i).map (·.id) := by
    refine List.filter_congr fun (t, i) member => ?_
    have inside : i < offered.length := by simpa using List.snd_lt_of_mem_zipIdx member
    simp only [List.take_append_of_le_length (Nat.le_of_lt inside)]
  rw [firsts, List.zipIdx_append, List.filter_append, before, List.map_append]
  by_cases old : s.id ∈ offered.map (·.id)
  · simp [old, firsts]
  · simp [old, firsts]

/-- What is kept of the sources offered are the first ones, one of every id. -/
structure FirstOfEach (offered kept : List ConfigSource) : Prop where
  whole : kept = firsts offered
  part : kept.Sublist offered
  distinct : (kept.map (·.id)).Nodup
  first : ∀ id, kept.find? (·.id = id) = offered.find? (·.id = id)

end ConfigSource

namespace UniqueSources
open ConfigSource

/-- How sources are offered to a collection. -/
inductive Call where
  | push (s : ConfigSource)
  | extend (sources : List ConfigSource)

def Call.offers : Call → List ConfigSource
  | .push s => [s]
  | .extend sources => sources

def step (u : UniqueSources) : Call → UniqueSources
  | .push s => (u.push s).1
  | .extend sources => u.extend sources

def run (u : UniqueSources) (calls : List Call) : UniqueSources := calls.foldl step u

theorem step_eq_extend (u : UniqueSources) (call : Call) : u.step call = u.extend call.offers := by
  cases call with
  | push s => rfl
  | extend sources => rfl

/-- Calls come to the same as one offer of all that they offer. -/
theorem run_eq_extend (u : UniqueSources) (calls : List Call) :
    u.run calls = u.extend (calls.flatMap Call.offers) := by
  induction calls generalizing u with
  | nil => rfl
  | cons call rest ih =>
    rw [List.flatMap_cons, extend_append, ← step_eq_extend]
    exact ih (u.step call)

theorem run_ofList (start : List ConfigSource) (calls : List Call) :
    (ofList start).run calls = ofList (start ++ calls.flatMap Call.offers) := by
  rw [run_eq_extend, ofList, ofList, extend_append]

theorem push_answer (offered : List ConfigSource) (s : ConfigSource) :
    ((ofList offered).push s).2 = true ↔ s.id ∉ offered.map (·.id) := by
  rw [← mem_ids_ofList, ← ofList_coherent, push]
  by_cases seen : s.id ∈ (ofList offered).seen <;> simp [seen]

theorem sources_ofList (offered : List ConfigSource) :
    (ofList offered).sources = firsts offered := by
  induction offered using List.reverseRecOn with
  | nil => rfl
  | append_singleton before s ih =>
    have after : (ofList (before ++ [s])).sources = ((ofList before).push s).1.sources := by
      rw [ofList, extend_append]
      rfl
    have seen : s.id ∈ (ofList before).seen ↔ s.id ∈ before.map (·.id) := by
      rw [ofList_coherent, mem_ids_ofList]
    rw [after, sources_push, firsts_snoc, ih]
    simp only [seen]

theorem firstOfEach_ofList (offered : List ConfigSource) :
    FirstOfEach offered (ofList offered).sources where
  whole := sources_ofList offered
  part := by
    rw [sources_ofList]
    exact firsts_sublist offered
  distinct := nodup_ids_ofList offered
  first := find?_ofList offered

theorem podVolumes_eq (sources : List ConfigSource) (settings : Settings)
    (sidecars : List CustomSidecar) : podVolumes sources settings sidecars =
      (ofList (sources ++ settings.extras.volumes ++ configMapVolumes sidecars)).sources := by
  rw [podVolumes, ofList, ofList, extend_append, extend_append]

/-- The first source of an id wins. After any calls a collection holds the first ones of all that was
offered to it, has seen their ids and no others, answers a push by whether its id is new, and is the
one that collects everything at once. So are the volumes of a pod the first declarations of every id
among sources, extra volumes and config maps. -/
theorem first_offers_kept (start : List ConfigSource) (calls : List Call) (s : ConfigSource)
    (sources : List ConfigSource) (settings : Settings) (sidecars : List CustomSidecar) :
    let offered := start ++ calls.flatMap Call.offers
    let u := (ofList start).run calls
    (FirstOfEach offered u.sources ∧ (∀ id, id ∈ u.seen ↔ id ∈ u.sources.map (·.id)) ∧
      ((u.push s).2 = true ↔ s.id ∉ offered.map (·.id)) ∧ u = ofList offered) ∧
    FirstOfEach (sources ++ settings.extras.volumes ++ configMapVolumes sidecars)
      (podVolumes sources settings sidecars) := by
  intro offered u
  have whole : u = ofList offered := run_ofList start calls
  rw [whole, podVolumes_eq]
  exact ⟨⟨firstOfEach_ofList offered, ofList_coherent offered, push_answer offered s, rfl⟩,
    firstOfEach_ofList _⟩

example : firsts [.secret "a" "/first" .empty, .emptyDir "a" "/second", .configMap "b" "/b"] =
    [.secret "a" "/first" .empty, .configMap "b" "/b"] := by decide

end UniqueSources
end Stevedore
