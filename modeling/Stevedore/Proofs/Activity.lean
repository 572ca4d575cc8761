import Mathlib.Data.List.Forall2
import Stevedore.Staging

/-! Activities taken apart: what a run of a composed activity does, and when it succeeds. -/
namespace Stevedore

theorem except_bind_ok {ε α β : Type} {first : Except ε α} {next : α → Except ε β} {result : β} :
    (first >>= next) = .ok result ↔ ∃ value, first = .ok value ∧ next value = .ok result := by
  cases first with
  | error e => simp [bind, Except.bind]
  | ok value => simp [bind, Except.bind]

theorem except_mapM_cons_ok {ε α β : Type} {f : α → Except ε β} {item : α} {rest : List α}
    {results : List β} : (item :: rest).mapM f = .ok results ↔
      ∃ first others, f item = .ok first ∧ rest.mapM f = .ok others ∧ results = first :: others := by
  rw [List.mapM_cons, except_bind_ok]
  constructor
  · rintro ⟨first, found, tail⟩
    obtain ⟨others, made, same⟩ := except_bind_ok.mp tail
    cases same
    exact ⟨first, others, found, made, rfl⟩
  · rintro ⟨first, others, found, made, rfl⟩
    exact ⟨first, found, except_bind_ok.mpr ⟨others, made, rfl⟩⟩

/-- Results come from items, and every item has its result. -/
theorem mem_except_mapM_ok {ε α β : Type} {f : α → Except ε β} {items : List α} {results : List β}
    (ok : items.mapM f = .ok results) (result : β) :
    result ∈ results ↔ ∃ item ∈ items, f item = .ok result := by
  induction items generalizing results with
  | nil =>
    cases ok
    simp
  | cons item rest ih =>
    obtain ⟨first, others, found, made, rfl⟩ := except_mapM_cons_ok.mp ok
    simp [ih made, found, eq_comm]

theorem except_mapM_forall₂ {ε α β : Type} {f : α → Except ε β} {items : List α}
    {results : List β} (ok : items.mapM f = .ok results) :
    List.Forall₂ (fun item result => f item = .ok result) items results := by
  induction items generalizing results with
  | nil =>
    cases ok
    exact .nil
  | cons item rest ih =>
    obtain ⟨first, others, found, made, rfl⟩ := except_mapM_cons_ok.mp ok
    exact .cons found (ih made)

theorem exists_except_mapM {ε α β : Type} {f : α → Except ε β} {items : List α}
    (each : ∀ item ∈ items, ∃ result, f item = .ok result) :
    ∃ results, items.mapM f = .ok results := by
  induction items with
  | nil => exact ⟨[], rfl⟩
  | cons item rest ih =>
    obtain ⟨first, found⟩ := each item List.mem_cons_self
    obtain ⟨others, made⟩ := ih fun item member => each item (List.mem_cons_of_mem _ member)
    exact ⟨first :: others, except_mapM_cons_ok.mpr ⟨first, others, found, made, rfl⟩⟩

/-- Where each item is decided, those that hold are picked out in order. -/
theorem except_filterM_ok {ε α : Type} {f : α → Except ε Bool} {holds : α → Bool} {items : List α}
    (each : ∀ item ∈ items, f item = .ok (holds item)) :
    items.filterM f = .ok (items.filter holds) := by
  have step (picked : List α) :
      items.filterAuxM f picked = .ok ((items.filter holds).reverse ++ picked) := by
    induction items generalizing picked with
    | nil => rfl
    | cons item rest ih =>
      have later := ih fun other member => each other (List.mem_cons_of_mem _ member)
      rw [List.filterAuxM, each item List.mem_cons_self]
      change rest.filterAuxM f (bif holds item then item :: picked else picked) = _
      rw [later, List.filter_cons]
      cases holds item <;> simp
  rw [List.filterM, step]
  simp [bind, Except.bind, pure, Except.pure]

section Failure
variable {ε α β : Type}

def failure? : Except ε α → Option ε
  | .ok _ => none
  | .error e => some e

theorem failure?_eq_some_iff {r : Except ε α} {e : ε} : failure? r = some e ↔ r = .error e := by
  cases r <;> simp [failure?]

theorem failure?_eq_none_iff {r : Except ε α} : failure? r = none ↔ ∃ value, r = .ok value := by
  cases r <;> simp [failure?]

theorem failure?_map (f : α → β) (r : Except ε α) : failure? (r.map f) = failure? r := by
  cases r <;> rfl

/-- The first failure in order is the failure of all. -/
theorem failure?_mapM (f : α → Except ε β) (items : List α) :
    failure? (items.mapM f) = items.findSome? fun item => failure? (f item) := by
  induction items with
  | nil => rfl
  | cons item rest ih =>
    rw [List.mapM_cons, List.findSome?_cons, ← ih]
    cases f item with
    | error e => rfl
    | ok value => cases rest.mapM f <;> rfl

/-- A fold whose steps fail whatever came before fails at the first item that makes one fail. -/
theorem failure?_foldlM {f : β → α → Except ε β} {g : α → Option ε}
    (each : ∀ b item, failure? (f b item) = g item) (items : List α) (b : β) :
    failure? (items.foldlM f b) = items.findSome? g := by
  induction items generalizing b with
  | nil => rfl
  | cons item rest ih =>
    rw [List.foldlM_cons, List.findSome?_cons, ← each b item]
    cases f b item with
    | error e => rfl
    | ok next => exact ih next

theorem findSome?_congr {f g : α → Option β} {items : List α}
    (same : ∀ item ∈ items, f item = g item) : items.findSome? f = items.findSome? g := by
  induction items with
  | nil => rfl
  | cons item rest ih =>
    rw [List.findSome?_cons, List.findSome?_cons, same item List.mem_cons_self,
      ih fun other member => same other (List.mem_cons_of_mem _ member)]

theorem findSome?_flatMap {γ : Type} (f : β → Option γ) (g : α → List β) (items : List α) :
    (items.flatMap g).findSome? f = items.findSome? fun item => (g item).findSome? f := by
  induction items with
  | nil => rfl
  | cons item rest ih =>
    rw [List.flatMap_cons, List.findSome?_append, ih, List.findSome?_cons]
    cases (g item).findSome? f with
    | none => rfl
    | some found => rfl

end Failure

section Related
variable {α β γ : Type} {R : α → β → Prop} {xs : List α} {ys : List β}

theorem exists_of_forall₂ (related : List.Forall₂ R xs ys) {y : β} (member : y ∈ ys) :
    ∃ x ∈ xs, R x y := by
  induction related with
  | nil => contradiction
  | cons head tail ih =>
    rcases List.mem_cons.mp member with rfl | inside
    · exact ⟨_, List.mem_cons_self, head⟩
    · obtain ⟨x, held, here⟩ := ih inside
      exact ⟨x, List.mem_cons_of_mem _ held, here⟩

theorem map_eq_of_forall₂ (related : List.Forall₂ R xs ys) {f : α → γ} {g : β → γ}
    (same : ∀ x y, R x y → f x = g y) : xs.map f = ys.map g := by
  induction related with
  | nil => rfl
  | cons head tail ih => rw [List.map_cons, List.map_cons, ih, same _ _ head]

/-- Where a relation holds of a pair just if something holds of its first part, it holds of all pairs
just if that holds of all first parts. -/
theorem forall₂_iff_forall {P : α → Prop} (each : List.Forall₂ (fun x y => R x y ↔ P x) xs ys) :
    List.Forall₂ R xs ys ↔ ∀ x ∈ xs, P x := by
  induction each with
  | nil => simp
  | cons head tail ih => rw [List.forall₂_cons, List.forall_mem_cons, head, ih]

end Related

/-- A run of two parts succeeds if both do, the second from where the first one ended. -/
theorem run_bind_ok {ε σ α β : Type} {first : ExceptT ε (StateM σ) α}
    {next : α → ExceptT ε (StateM σ) β} {s s' : σ} {result : β} :
    (first >>= next).run.run s = (.ok result, s') ↔
      ∃ value t, first.run.run s = (.ok value, t) ∧ (next value).run.run t = (.ok result, s') := by
  change (ExceptT.bindCont next (first.run.run s).1).run (first.run.run s).2 = _ ↔ _
  rcases first.run.run s with ⟨e | value, t⟩
  · constructor
    · intro failed
      cases failed
    · rintro ⟨_, _, same, -⟩
      cases same
  · constructor
    · intro rest
      exact ⟨value, t, rfl, rest⟩
    · rintro ⟨_, _, same, rest⟩
      cases same
      exact rest

namespace Activity
variable {σ α β : Type}

/-- How an activity ends that starts from a state, and the state it leaves. -/
def outcome (x : Activity σ α) (s : σ) : Except DeployError α × σ := x.run s

@[simp] theorem outcome_pure (value : α) (s : σ) :
    outcome (pure value : Activity σ α) s = (.ok value, s) := rfl

@[simp] theorem outcome_lift (r : Except DeployError α) (s : σ) :
    outcome (liftM r : Activity σ α) s = (r, s) := rfl

theorem lift_ok_bind (value : α) (next : α → Activity σ β) :
    (liftM (.ok value : Except DeployError α) >>= next) = next value := rfl

/-- The second part of an activity starts where the first one ended, unless that failed. -/
theorem outcome_bind (first : Activity σ α) (next : α → Activity σ β) (s : σ) :
    outcome (first >>= next) s =
      match outcome first s with
      | (.ok value, t) => outcome (next value) t
      | (.error e, t) => (.error e, t) := by
  change (ExceptT.bindCont next (outcome first s).1).run (outcome first s).2 = _
  rcases outcome first s with ⟨_ | value, t⟩ <;> rfl

theorem outcome_bind_ok {first : Activity σ α} {next : α → Activity σ β} {s s' : σ} {result : β} :
    outcome (first >>= next) s = (.ok result, s') ↔
      ∃ value t, outcome first s = (.ok value, t) ∧ outcome (next value) t = (.ok result, s') :=
  run_bind_ok

theorem outcome_lift_bind (r : Except DeployError α) (next : α → Activity σ β) (s : σ) :
    outcome ((liftM r : Activity σ α) >>= next) s =
      match r with
      | .ok value => outcome (next value) s
      | .error e => (.error e, s) := by
  rw [outcome_bind, outcome_lift]
  cases r <;> rfl

/-- What comes after an activity and changes no state leaves the one that the activity left. -/
theorem state_bind {first : Activity σ α} {next : α → Activity σ β}
    (kept : ∀ value t, (outcome (next value) t).2 = t) (s : σ) :
    (outcome (first >>= next) s).2 = (outcome first s).2 := by
  rw [outcome_bind]
  rcases outcome first s with ⟨e | value, t⟩
  · rfl
  · exact kept value t

theorem state_lift_bind (r : Except DeployError α) (next : α → Activity σ β) (s : σ) :
    (outcome ((liftM r : Activity σ α) >>= next) s).2 = s ∨
      ∃ value, r = .ok value ∧
        (outcome ((liftM r : Activity σ α) >>= next) s).2 = (outcome (next value) s).2 := by
  rw [outcome_lift_bind]
  cases r with
  | error e => exact .inl rfl
  | ok value => exact .inr ⟨value, rfl, rfl⟩

theorem outcome_lift_bind_ok {r : Except DeployError α} {next : α → Activity σ β} {s s' : σ}
    {result : β} : outcome ((liftM r : Activity σ α) >>= next) s = (.ok result, s') ↔
      ∃ value, r = .ok value ∧ outcome (next value) s = (.ok result, s') := by
  rw [outcome_lift_bind]
  cases r <;> simp

/-- A failure comes from the second part, with what the first one left, unless the first one failed
already. -/
theorem outcome_bind_error {first : Activity σ α} {next : α → Activity σ β} {s s' : σ}
    {e : DeployError} : outcome (first >>= next) s = (.error e, s') ↔
      outcome first s = (.error e, s') ∨
        ∃ value t, outcome first s = (.ok value, t) ∧ outcome (next value) t = (.error e, s') := by
  rw [outcome_bind]
  rcases outcome first s with ⟨e' | value, t⟩
  · simp
  · simp only [Prod.mk.injEq, reduceCtorEq, false_and, false_or, Except.ok.injEq]
    constructor
    · intro rest
      exact ⟨value, t, ⟨rfl, rfl⟩, rest⟩
    · rintro ⟨_, _, ⟨rfl, rfl⟩, rest⟩
      exact rest

theorem outcome_lift_bind_error {r : Except DeployError α} {next : α → Activity σ β} {s s' : σ}
    {e : DeployError} : outcome ((liftM r : Activity σ α) >>= next) s = (.error e, s') ↔
      (r = .error e ∧ s = s') ∨
        ∃ value, r = .ok value ∧ outcome (next value) s = (.error e, s') := by
  rw [outcome_lift_bind]
  cases r <;> simp

theorem outcome_mapM_cons_ok {f : α → Activity σ β} {item : α} {rest : List α} {s s' : σ}
    {results : List β} : outcome ((item :: rest).mapM f) s = (.ok results, s') ↔
      ∃ first t others, outcome (f item) s = (.ok first, t) ∧
        outcome (rest.mapM f) t = (.ok others, s') ∧ results = first :: others := by
  rw [List.mapM_cons, outcome_bind_ok]
  constructor
  · rintro ⟨first, t, found, tail⟩
    obtain ⟨others, u, made, same⟩ := outcome_bind_ok.mp tail
    rw [outcome_pure] at same
    cases same
    exact ⟨first, t, others, found, made, rfl⟩
  · rintro ⟨first, t, others, found, made, rfl⟩
    exact ⟨first, t, found, outcome_bind_ok.mpr ⟨others, s', made, rfl⟩⟩

/-- A list of activities that succeeds succeeds at each of them, where those before it lead. -/
theorem outcome_mapM_split {f : α → Activity σ β} {before after : List α} {item : α} {s s' : σ}
    {results : List β}
    (ok : outcome ((before ++ item :: after).mapM f) s = (.ok results, s')) :
    ∃ earlier t result u later, outcome (before.mapM f) s = (.ok earlier, t) ∧
      outcome (f item) t = (.ok result, u) ∧ outcome (after.mapM f) u = (.ok later, s') ∧
      results = earlier ++ result :: later := by
  induction before generalizing s results with
  | nil =>
    obtain ⟨result, u, later, found, rest, rfl⟩ := outcome_mapM_cons_ok.mp ok
    exact ⟨[], s, result, u, later, rfl, found, rest, rfl⟩
  | cons head before ih =>
    obtain ⟨first, t, others, found, rest, rfl⟩ := outcome_mapM_cons_ok.mp ok
    obtain ⟨earlier, u, result, v, later, led, here, left, rfl⟩ := ih rest
    exact ⟨first :: earlier, u, result, v, later,
      outcome_mapM_cons_ok.mpr ⟨first, t, earlier, found, led, rfl⟩, here, left, rfl⟩

/-- What holds of every result of an activity holds item by item of a list of them. -/
theorem forall₂_of_mapM {f : α → Activity σ β} {R : α → β → Prop}
    (each : ∀ item s result s', outcome (f item) s = (.ok result, s') → R item result)
    {items : List α} {s s' : σ} {results : List β}
    (ok : outcome (items.mapM f) s = (.ok results, s')) : List.Forall₂ R items results := by
  induction items generalizing s results with
  | nil =>
    cases ok
    exact .nil
  | cons item rest ih =>
    obtain ⟨first, t, others, found, made, rfl⟩ := outcome_mapM_cons_ok.mp ok
    exact .cons (each item s first t found) (ih made)

/-- Activities that succeed from every state succeed one after another. -/
theorem outcome_mapM_ok {f : α → Activity σ β} {result : α → β} {leaves : σ → α → σ}
    {items : List α}
    (each : ∀ item ∈ items, ∀ s, outcome (f item) s = (.ok (result item), leaves s item)) (s : σ) :
    outcome (items.mapM f) s = (.ok (items.map result), items.foldl leaves s) := by
  induction items generalizing s with
  | nil => rfl
  | cons item rest ih =>
    have later := ih fun other member => each other (List.mem_cons_of_mem _ member)
    exact outcome_mapM_cons_ok.mpr
      ⟨result item, leaves s item, rest.map result, each item List.mem_cons_self s, later _, rfl⟩

/-- Where no result depends on the state, the first failure in order is the failure of all. -/
theorem fst_outcome_mapM {f : α → Activity σ β} {result : α → Except DeployError β}
    (each : ∀ item s, (outcome (f item) s).1 = result item) (items : List α) (s : σ) :
    (outcome (items.mapM f) s).1 = (items.map result).mapM id := by
  induction items generalizing s with
  | nil => rfl
  | cons item rest ih =>
    rw [List.mapM_cons, List.map_cons, List.mapM_cons, outcome_bind, ← each item s]
    rcases outcome (f item) s with ⟨e | value, t⟩
    · rfl
    · change (outcome _ t).1 = (do let values ← (rest.map result).mapM id; pure (value :: values))
      rw [outcome_bind, ← ih t]
      rcases outcome (rest.mapM f) t with ⟨e | values, u⟩
      · rfl
      · rfl

theorem failure?_outcome_mapM {f : α → Activity σ β} {g : α → Option DeployError}
    (each : ∀ item s, failure? (outcome (f item) s).1 = g item) (items : List α) (s : σ) :
    failure? (outcome (items.mapM f) s).1 = items.findSome? g := by
  induction items generalizing s with
  | nil => rfl
  | cons item rest ih =>
    rw [List.mapM_cons, outcome_bind, List.findSome?_cons, ← each item s]
    rcases outcome (f item) s with ⟨e | value, t⟩
    · rfl
    · have later := ih t
      change failure? (outcome (rest.mapM f >>= fun values => pure (value :: values)) t).1 = _
      rw [outcome_bind]
      rcases others : outcome (rest.mapM f) t with ⟨e | values, u⟩ <;>
        · rw [others] at later
          exact later

end Activity
end Stevedore
