import Mathlib.Data.List.Forall2
import Stevedore.Json.Document
import Stevedore.Proofs.Table

/-!
Documents that show a value, and what readers find in them. A reader undoes a writer if it reads
what was written in whatever document shows that; readers of lists, tables and records do so if the
readers of their parts do.
-/
namespace Stevedore.Document
variable {δ α : Type} [Document δ]

/-- What a document of any kind gives of its value: all of it, and whether it is set. -/
structure Gives (d : δ) (v : Json) (set : Option δ) : Prop where
  json : json? d = some v
  aside : aside? d = some v
  setting : setting? d = some set

/-- A document shows a value to its readers, with all that is in it. -/
inductive Shows : δ → Json → Prop where
  | null {d : δ} (gives : Gives d .null none) : Shows d .null
  | flag {d : δ} {b : Bool} (gives : Gives d (.bool b) (some d)) (read : flag? d = some b) :
      Shows d (.bool b)
  | integer {d : δ} {n : Int} (gives : Gives d (.integer n) (some d))
      (read : natural? d = if 0 ≤ n then some n.toNat else none) : Shows d (.integer n)
  | float {d : δ} {x : Binary64} (gives : Gives d (.float x) (some d)) : Shows d (.float x)
  | text {d : δ} {s : String} (gives : Gives d (.text s) (some d)) (read : text? d = some s)
      (word : word? d = some s) : Shows d (.text s)
  | list {d : δ} {ds : List δ} {items : List Json} (gives : Gives d (.list items) (some d))
      (read : items? d = some ds) (each : List.Forall₂ Shows ds items) : Shows d (.list items)
  | record {d : δ} {ds : List (String × δ)} {tree : List (String × Json)}
      (gives : Gives d (.record tree) (some d)) (read : entries? d = some ds)
      (shape : shape? d = some (.named ds)) (names : ds.map (·.1) = tree.map (·.1))
      (values : List.Forall₂ Shows (ds.map (·.2)) (tree.map (·.2))) : Shows d (.record tree)

mutual

theorem shows_self : (v : Json) → Shows v v
  | .null => .null ⟨rfl, rfl, rfl⟩
  | .bool _ => .flag ⟨rfl, rfl, rfl⟩ rfl
  | .integer _ => .integer ⟨rfl, rfl, rfl⟩ rfl
  | .float _ => .float ⟨rfl, rfl, rfl⟩
  | .text _ => .text ⟨rfl, rfl, rfl⟩ rfl rfl
  | .list items => .list ⟨rfl, rfl, rfl⟩ rfl (shows_items items)
  | .record fields => .record ⟨rfl, rfl, rfl⟩ rfl rfl rfl (shows_values fields)

theorem shows_items : (items : List Json) → List.Forall₂ Shows items items
  | [] => .nil
  | v :: rest => .cons (shows_self v) (shows_items rest)

theorem shows_values :
    (fields : List (String × Json)) → List.Forall₂ Shows (fields.map (·.2)) (fields.map (·.2))
  | [] => .nil
  | (_, v) :: rest => .cons (shows_self v) (shows_values rest)

end

section Values
variable {d : δ} {v : Json}

theorem Shows.given (shows : Shows d v) : json? d = some v ∧ aside? d = some v := by
  cases shows with
  | null gives | flag gives | integer gives | float gives | text gives | list gives
  | record gives => exact ⟨gives.json, gives.aside⟩

theorem Shows.set (shows : Shows d v) (some_ : v ≠ .null) : setting? d = some (some d) := by
  cases shows with
  | null => contradiction
  | flag gives | integer gives | float gives | text gives | list gives | record gives =>
    exact gives.setting

end Values

/-- The reader finds what was written in every document that shows it. -/
def Undoes (read : δ → Option α) (write : α → Json) : Prop :=
  ∀ ⦃d : δ⦄ ⦃a : α⦄, Shows d (write a) → read d = some a

section Readers
variable {read : δ → Option α} {write : α → Json}

theorem undoes_text : Undoes (δ := δ) text? .text := by
  intro d s shows
  cases shows with
  | text _ read _ => exact read

theorem undoes_flag : Undoes (δ := δ) flag? .bool := by
  intro d b shows
  cases shows with
  | flag _ read => exact read

theorem natural_shown {d : δ} {n : Nat} (shows : Shows d (.integer n)) : natural? d = some n := by
  cases shows with
  | integer _ read => simpa using read

theorem undoes_natural16 : Undoes (δ := δ) natural16? fun n : UInt16 => .integer n.toNat := by
  intro d n shows
  rw [natural16?, natural_shown shows, Option.bind_some, if_pos n.toNat_lt, UInt16.ofNat_toNat]

theorem undoes_natural32 : Undoes (δ := δ) natural32? fun n : UInt32 => .integer n.toNat := by
  intro d n shows
  rw [natural32?, natural_shown shows, Option.bind_some, if_pos n.toNat_lt, UInt32.ofNat_toNat]

theorem undoes_json : Undoes (δ := δ) json? id := fun _ _ shows => shows.given.1

theorem mapM_shown (undoes : Undoes read write) {ds : List δ} {items : List α}
    (each : List.Forall₂ Shows ds (items.map write)) : ds.mapM read = some items := by
  induction items generalizing ds with
  | nil =>
    cases each
    rfl
  | cons a rest ih =>
    cases each with
    | cons first others => simp [List.mapM_cons, undoes first, ih others]

theorem undoes_list (undoes : Undoes read write) :
    Undoes (listOf? read) fun items => .list (items.map write) := by
  intro d items shows
  cases shows with
  | list _ read each => rw [listOf?, read, Option.bind_some, mapM_shown undoes each]

theorem entries_shown (undoes : Undoes read write) {ds : List (String × δ)}
    {entries : List (String × α)} (names : ds.map (·.1) = entries.map (·.1))
    (values : List.Forall₂ Shows (ds.map (·.2)) (entries.map fun e => write e.2)) :
    (ds.mapM fun e => (read e.2).map fun v => (e.1, v)) = some entries := by
  induction entries generalizing ds with
  | nil =>
    obtain rfl := List.map_eq_nil_iff.mp names
    rfl
  | cons e rest ih =>
    obtain ⟨x, ds, rfl, same, names⟩ := List.map_eq_cons_iff.mp names
    cases values with
    | cons first others => simp [List.mapM_cons, undoes first, ih names others, same]

theorem undoes_table (undoes : Undoes read write) :
    Undoes (tableOf? read) fun t : Table α => .ofTable (t.mapValues write) := by
  intro d t shows
  change Shows d (.record (t.entries.map fun e => (e.1, write e.2))) at shows
  cases shows with
  | record _ read _ names values =>
    rw [List.map_map] at names values
    rw [tableOf?, read, Option.bind_some, entries_shown undoes names values, Option.map_some,
      Table.ofList_entries]

theorem undoes_texts : Undoes (δ := δ) (listOf? text?) .texts := undoes_list undoes_text

theorem undoes_textTable : Undoes (δ := δ) textTable? .textTable := undoes_table undoes_text

theorem undoes_ofTable : Undoes (δ := δ) (tableOf? json?) .ofTable := by
  intro d t shows
  have kept : t.mapValues id = t := Table.ext (List.map_id _)
  rw [← kept] at shows
  exact undoes_table undoes_json shows

end Readers

/-- Fields of a document that show those of a record. -/
structure ShowsFields (ds : List (String × δ)) (tree : List (String × Json)) : Prop where
  names : ds.map (·.1) = tree.map (·.1)
  values : List.Forall₂ Shows (ds.map (·.2)) (tree.map (·.2))

theorem names_field {β : Type} (name : String) (write : β → Json) (value : Option β) :
    ((Json.field? name write value).map (·.1)).Sublist [name] := by
  cases value with
  | none => exact List.nil_sublist _
  | some b => exact List.Sublist.refl _

theorem names_append {tree tree' : List (String × Json)} {names names' : List String}
    (known : (tree.map (·.1)).Sublist names) (known' : (tree'.map (·.1)).Sublist names') :
    ((tree ++ tree').map (·.1)).Sublist (names ++ names') := by
  rw [List.map_append]
  exact known.append known'

section Fields
variable {d : δ} {ds : List (String × δ)} {tree : List (String × Json)} {names : List String}

theorem fields_shown (names : List String) (shows : Shows d (.record tree))
    (known : (tree.map (·.1)).Sublist names) (distinct : names.Nodup) :
    ∃ ds, fields? names d = some ds ∧ ShowsFields ds tree := by
  cases shows with
  | @record _ ds _ _ _ shape same values =>
    have shown : ShowsFields ds tree := ⟨same, values⟩
    have once : noneTwice names ds = true := by
      rw [noneTwice, same, decide_eq_true_eq]
      exact (known.nodup distinct).filter _
    exact ⟨ds, by rw [fields?, shape]; exact if_pos once, shown⟩

theorem sharedFields_shown (names : List String) (shows : Shows d (.record tree))
    (distinct : ((tree.map (·.1)).filter names.contains).Nodup) :
    ∃ ds, sharedFields? names d = some ds ∧ ShowsFields ds tree := by
  cases shows with
  | @record _ ds _ _ read _ same values =>
    have once : noneTwice names ds = true := by rwa [noneTwice, same, decide_eq_true_eq]
    exact ⟨ds, by rw [sharedFields?, read, Option.bind_some, if_pos once], same, values⟩

theorem ShowsFields.head {x : String × δ} {f : String × Json}
    (shown : ShowsFields (x :: ds) (f :: tree)) :
    x.1 = f.1 ∧ Shows x.2 f.2 ∧ ShowsFields ds tree := by
  obtain ⟨same, names⟩ := List.cons.inj shown.names
  cases shown.values with
  | cons first others => exact ⟨same, first, names, others⟩

theorem ShowsFields.lookup (shown : ShowsFields ds tree) (name : String) :
    Option.Rel Shows (ds.lookup name) (tree.lookup name) := by
  induction tree generalizing ds with
  | nil =>
    obtain rfl := List.map_eq_nil_iff.mp shown.names
    exact .none
  | cons f tree ih =>
    obtain ⟨x, ds, rfl, -, -⟩ := List.map_eq_cons_iff.mp shown.names
    obtain ⟨same, first, others⟩ := shown.head
    rw [Table.lookup_cons_eq, Table.lookup_cons_eq, same]
    split
    · exact .some first
    · exact ih others

/-- What is set aside are the values of the other fields. -/
theorem others_shown (shown : ShowsFields ds tree) (names : List String) :
    others? names ds = some (.record (tree.filter fun f => !names.contains f.1)) := by
  have each : ((ds.filter fun f => !names.contains f.1).mapM fun f =>
      (aside? f.2).map fun v => (f.1, v)) = some (tree.filter fun f => !names.contains f.1) := by
    induction tree generalizing ds with
    | nil =>
      obtain rfl := List.map_eq_nil_iff.mp shown.names
      rfl
    | cons f tree ih =>
      obtain ⟨x, ds, rfl, -, -⟩ := List.map_eq_cons_iff.mp shown.names
      obtain ⟨same, first, others⟩ := shown.head
      have later := ih others
      rw [List.filter_cons, List.filter_cons, same]
      split
      · rw [List.mapM_cons, first.given.2, later, same]
        rfl
      · exact later
  rw [others?, each, Option.map_some]

/-- A record's own fields beside those of another value, which is found again in the rest. -/
theorem beside_shown (names : List String) {inner own : List (String × Json)}
    (shows : Shows d (.record (inner ++ own))) (known : own.map (·.1) = names)
    (distinct : names.Nodup) (apart : ∀ f ∈ inner, f.1 ∉ names) :
    ∃ ds, sharedFields? names d = some ds ∧ ShowsFields ds (inner ++ own) ∧
      others? names ds = some (.record inner) ∧
      ∀ name ∈ names, (inner ++ own).lookup name = own.lookup name := by
  have inner_none : (inner.map (·.1)).filter names.contains = [] := by
    simpa [List.filter_eq_nil_iff] using apart
  have own_all : ∀ f ∈ own, f.1 ∈ names := fun f mem => known ▸ List.mem_map_of_mem mem
  obtain ⟨ds, ok, shown⟩ := sharedFields_shown names shows (by
    rw [List.map_append, List.filter_append, inner_none, List.nil_append, known]
    exact distinct.filter _)
  refine ⟨ds, ok, shown, ?_, ?_⟩
  · have inner_kept : inner.filter (fun f => !names.contains f.1) = inner := by
      simpa [List.filter_eq_self] using apart
    have own_left : own.filter (fun f => !names.contains f.1) = [] := by
      simpa [List.filter_eq_nil_iff] using own_all
    rw [others_shown shown, List.filter_append, inner_kept, own_left, List.append_nil]
  · intro name mem
    have outside : inner.lookup name = none := by
      rw [List.lookup_eq_none_iff]
      intro f inside
      simpa using fun same : name = f.1 => apart f inside (same ▸ mem)
    rw [List.lookup_append, outside, Option.none_or]

variable {read : δ → Option α} {write : α → Json}

theorem required_shown (shown : ShowsFields ds tree) (undoes : Undoes read write) {name : String}
    {a : α} (found : tree.lookup name = some (write a)) : required? ds name read = some a := by
  have related := shown.lookup name
  rw [found] at related
  rw [required?]
  cases looked : ds.lookup name with
  | none =>
    rw [looked] at related
    cases related
  | some x =>
    rw [looked] at related
    cases related with
    | some shows => exact undoes shows

theorem defaulted_shown (shown : ShowsFields ds tree) (undoes : Undoes read write) {name : String}
    {a default : α} (found : tree.lookup name = some (write a)) :
    defaulted? ds name default read = some a := by
  have required := required_shown shown undoes found
  rw [required?] at required
  rw [defaulted?]
  cases looked : ds.lookup name with
  | none => simp [looked] at required
  | some x => simpa [looked] using required

theorem optional_shown (shown : ShowsFields ds tree) (undoes : Undoes read write)
    (set : ∀ a, write a ≠ .null) {name : String} {value : Option α}
    (found : tree.lookup name = value.map write) : optional? ds name read = some value := by
  have related := shown.lookup name
  rw [found] at related
  rw [optional?]
  cases looked : ds.lookup name with
  | none =>
    rw [looked] at related
    cases value with
    | none => rfl
    | some a => cases related
  | some x =>
    rw [looked] at related
    cases value with
    | none => cases related
    | some a =>
      cases related with
      | some shows => simp [shows.set (set a), undoes shows]

end Fields

end Stevedore.Document
