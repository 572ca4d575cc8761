import Stevedore.Json.Basic

/-! Looking up in tables: what each operation leaves under a key, that tables are determined by what
they hold, and the fields that optional values leave in a record. -/
namespace Stevedore.Table
variable {α β : Type}

theorem lookup_cons_eq (first k : String) (v : α) (rest : List (String × α)) :
    ((first, v) :: rest).lookup k = if k = first then some v else rest.lookup k := by
  by_cases same : k = first
  · simp [same]
  · have test : (k == first) = false := beq_eq_false_iff_ne.mpr same
    simp [List.lookup_cons, test, same]

theorem lookup_insertEntry (key : String) (value : α) (entries : List (String × α)) (k : String) :
    (insertEntry key value entries).lookup k =
      if k = key then some value else entries.lookup k := by
  induction entries with
  | nil => rw [insertEntry, lookup_cons_eq]
  | cons head rest ih =>
    obtain ⟨first, v⟩ := head
    simp only [insertEntry]
    split
    · rw [lookup_cons_eq]
    · split
      · next notBelow above =>
        have different : first ≠ key := fun same => String.lt_irrefl key (same ▸ above)
        rw [lookup_cons_eq, lookup_cons_eq, ih]
        by_cases atFirst : k = first
        · subst atFirst
          simp [different]
        · simp [atFirst]
      · next notBelow notAbove =>
        have same : key = first := String.le_antisymm notAbove notBelow
        subst same
        rw [lookup_cons_eq, lookup_cons_eq]
        by_cases atKey : k = key <;> simp [atKey]

theorem lookup_eq_some_iff {entries : List (String × α)} (distinct : (entries.map (·.1)).Nodup)
    (k : String) (v : α) : entries.lookup k = some v ↔ (k, v) ∈ entries := by
  induction entries with
  | nil => simp
  | cons head rest ih =>
    obtain ⟨first, w⟩ := head
    obtain ⟨absent, distinct⟩ := List.nodup_cons.mp distinct
    rw [lookup_cons_eq]
    by_cases same : k = first
    · subst same
      have absent : (k, v) ∉ rest := fun member =>
        absent (List.mem_map.mpr ⟨(k, v), member, rfl⟩)
      simp [absent, eq_comm]
    · simp [same, ih distinct]

@[simp] theorem get?_empty (k : String) : (empty : Table α).get? k = none := rfl

theorem get?_insert (t : Table α) (key : String) (value : α) (k : String) :
    (t.insert key value).get? k = if k = key then some value else t.get? k :=
  lookup_insertEntry key value t.entries k

theorem get?_modify (t : Table α) (key : String) (default : α) (change : α → α) (k : String) :
    (t.modify key default change).get? k =
      if k = key then some (change ((t.get? key).getD default)) else t.get? k :=
  get?_insert t key _ k

theorem keys_nodup (t : Table α) : t.keys.Nodup := by
  refine List.pairwise_map.mpr (t.sorted.imp fun {a b} below same => ?_)
  rw [same] at below
  exact String.lt_irrefl b.1 below

theorem entries_nodup (t : Table α) : t.entries.Nodup :=
  List.Pairwise.of_map (·.1) (fun _ _ different same => different (same ▸ rfl)) t.keys_nodup

theorem mem_entries_iff {t : Table α} {k : String} {v : α} :
    (k, v) ∈ t.entries ↔ t.get? k = some v :=
  (lookup_eq_some_iff t.keys_nodup k v).symm

theorem mem_values_iff {t : Table α} {v : α} : v ∈ t.values ↔ ∃ k, t.get? k = some v := by
  simp only [values, List.mem_map, Prod.exists, exists_eq_right, mem_entries_iff]

/-- Tables that answer every look-up alike are the same table. -/
theorem ext_get? {s t : Table α} (same : ∀ k, s.get? k = t.get? k) : s = t := by
  have members (e : String × α) : e ∈ s.entries ↔ e ∈ t.entries := by
    rw [mem_entries_iff, mem_entries_iff, same e.1]
  have perm : s.entries.Perm t.entries :=
    (List.perm_ext_iff_of_nodup s.entries_nodup t.entries_nodup).mpr members
  apply ext
  exact perm.eq_of_pairwise
    (fun a _ _ _ below above => absurd (String.lt_trans below above) (String.lt_irrefl a.1))
    s.sorted t.sorted

/-- Under different keys it does not matter which is inserted first. -/
theorem insert_comm (t : Table α) {key key' : String} (different : key ≠ key') (value value' : α) :
    (t.insert key value).insert key' value' = (t.insert key' value').insert key value := by
  apply ext_get?
  intro k
  rw [get?_insert, get?_insert, get?_insert, get?_insert]
  by_cases first : k = key
  · rw [first, if_neg different, if_pos rfl, if_pos rfl]
  · rw [if_neg first, if_neg first]

theorem get?_foldl_insert (entries : List (String × α)) (t : Table α) (k : String) :
    (entries.foldl (fun t e => t.insert e.1 e.2) t).get? k =
      (entries.reverse.lookup k).or (t.get? k) := by
  induction entries generalizing t with
  | nil => simp
  | cons head rest ih =>
    obtain ⟨first, v⟩ := head
    rw [List.foldl_cons, ih, get?_insert, List.reverse_cons, List.lookup_append, lookup_cons_eq]
    by_cases same : k = first <;> simp [same]

theorem get?_ofList (entries : List (String × α)) (k : String) :
    (ofList entries).get? k = entries.reverse.lookup k := by
  simp [ofList, get?_foldl_insert]

theorem lookup_reverse_entries (t : Table α) (k : String) :
    t.entries.reverse.lookup k = t.get? k := by
  have distinct : (t.entries.reverse.map (·.1)).Nodup := by
    rw [List.map_reverse, List.Nodup, List.pairwise_reverse]
    exact t.keys_nodup.imp Ne.symm
  apply Option.ext
  intro v
  rw [lookup_eq_some_iff distinct, List.mem_reverse, mem_entries_iff]

theorem get?_overlay (below above : Table α) (k : String) :
    (overlay below above).get? k = (above.get? k).or (below.get? k) := by
  rw [overlay, get?_foldl_insert, lookup_reverse_entries]

/-- Of tables laid over each other the last one that has a key decides about it. -/
theorem get?_foldl_overlay (tables : List (Table α)) (t : Table α) (k : String) :
    (tables.foldl overlay t).get? k =
      (tables.reverse.findSome? fun above => above.get? k).or (t.get? k) := by
  induction tables generalizing t with
  | nil => simp
  | cons head rest ih =>
    rw [List.foldl_cons, ih, get?_overlay, List.reverse_cons, List.findSome?_append,
      List.findSome?_singleton, Option.or_assoc]

theorem ofList_entries (t : Table α) : ofList t.entries = t := by
  apply ext_get?
  intro k
  rw [get?_ofList, lookup_reverse_entries]

end Stevedore.Table

namespace Stevedore.Json

theorem lookup_field {α : Type} (name key : String) (encode : α → Json) (value : Option α) :
    (field? name encode value).lookup key = if key = name then value.map encode else none := by
  cases value with
  | none => simp [field?]
  | some a =>
    rw [field?, Table.lookup_cons_eq]
    rfl

theorem reverse_field {α : Type} (name : String) (encode : α → Json) (value : Option α) :
    (field? name encode value).reverse = field? name encode value := by
  cases value <;> rfl

end Stevedore.Json
