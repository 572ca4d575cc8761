import Mathlib.Data.List.Induction
import Stevedore.Bundle.Secret
import Stevedore.Proofs.Table
import Stevedore.Staging

/-! What a store of secrets does apart from its state: its answers do not depend on it, what it keeps
is determined by what was written, and the name of a secret tells whose it is. -/
namespace Stevedore

namespace Digest.Sha256

theorem length_bigEndian (count n : Nat) : (bigEndian count n).length = count := by
  induction count with
  | zero => rfl
  | succ count ih => rw [bigEndian, List.length_cons, ih]

theorem length_digest (message : List UInt8) : (digest message).length = 32 := by
  simp [digest, length_bigEndian]

end Digest.Sha256

theorem Text.length_hexadecimal (width n : Nat) : (Text.hexadecimal width n).length = width := by
  induction width with
  | zero => rfl
  | succ width ih => rw [Text.hexadecimal, List.length_cons, ih]

theorem Text.length_hexBytes (bytes : List UInt8) :
    (Text.hexBytes bytes).length = 2 * bytes.length := by
  induction bytes with
  | nil => rfl
  | cons b rest ih =>
    have first := Text.length_hexadecimal 2 b.toNat
    rw [Text.hexBytes] at ih
    rw [Text.hexBytes, List.flatMap_cons, List.length_append, first, ih, List.length_cons]
    omega

namespace SecretStore
variable {tree : File.Tree} {request : BundleRequest}

/-- The secret that a request makes of the files as they are. -/
def made (tree : File.Tree) (request : BundleRequest) : Except StoreError Secret :=
  if request.files.isEmpty then .error (.emptyBundle request.stem)
  else (request.files.mapM (readOne tree)).map (secret request)

def answer (tree : File.Tree) (request : BundleRequest) : Except StoreError String :=
  (made tree request).map (·.name)

/-- What a request leaves in the store: one secret or nothing. -/
def written (tree : File.Tree) (request : BundleRequest) : List Secret :=
  (made tree request).toOption.toList

def keep (state : SecretState) (secrets : List Secret) : SecretState :=
  secrets.foldl (fun t s => t.insert s.name s) state

theorem keep_append (state : SecretState) (first second : List Secret) :
    keep state (first ++ second) = keep (keep state first) second := List.foldl_append

theorem keep_insert {log : List Secret} {key : String} (other : ∀ s ∈ log, key ≠ s.name)
    (state : SecretState) (value : Secret) :
    keep (state.insert key value) log = (keep state log).insert key value := by
  induction log generalizing state with
  | nil => rfl
  | cons s rest ih =>
    change keep ((state.insert key value).insert s.name s) rest = _
    rw [Table.insert_comm _ (other s List.mem_cons_self),
      ih fun t later => other t (List.mem_cons_of_mem _ later)]
    rfl

/-- Of two logs that share no name it does not matter which is kept first. -/
theorem keep_comm {log log' : List Secret} (apart : ∀ s ∈ log, ∀ t ∈ log', s.name ≠ t.name)
    (state : SecretState) : keep (keep state log) log' = keep (keep state log') log := by
  induction log generalizing state with
  | nil => rfl
  | cons s rest ih =>
    change keep (keep (state.insert s.name s) rest) log' =
      keep ((keep state log').insert s.name s) rest
    rw [ih fun t later => apart t (List.mem_cons_of_mem _ later),
      keep_insert (apart s List.mem_cons_self)]

theorem create_eq (state : SecretState) :
    create tree request state = (answer tree request, keep state (written tree request)) := by
  unfold create answer written made
  split
  · rfl
  · cases request.files.mapM (readOne tree) with
    | error e => rfl
    | ok files => rfl

theorem made_of_written {s : Secret} (member : s ∈ written tree request) :
    made tree request = .ok s := by
  unfold written at member
  cases found : made tree request with
  | error e =>
    rw [found] at member
    contradiction
  | ok t =>
    rw [found] at member
    rw [List.mem_singleton.mp member]

theorem files_of_made {s : Secret} (ok : made tree request = .ok s) :
    ∃ files, request.files.mapM (readOne tree) = .ok files ∧ s = secret request files := by
  unfold made at ok
  split at ok
  · contradiction
  · cases read : request.files.mapM (readOne tree) with
    | error e =>
      rw [read] at ok
      contradiction
    | ok files =>
      rw [read] at ok
      exact ⟨files, rfl, (Except.ok.inj ok).symm⟩

theorem secret_of_made {s : Secret} (ok : made tree request = .ok s) :
    ∃ files, s = secret request files := by
  obtain ⟨files, -, same⟩ := files_of_made ok
  exact ⟨files, same⟩

theorem length_digits (files : List StagedFile) :
    ((Text.hexBytes (Digest.Sha256.digest (fingerprint files))).take digestDigits).length =
      digestDigits := by
  rw [List.length_take, Text.length_hexBytes, Digest.Sha256.length_digest]
  rfl

/-- Bundles of one name have one stem, whatever is in them. -/
theorem stem_of_bundleName {stem stem' : String} {files files' : List StagedFile}
    (same : bundleName stem files = bundleName stem' files') : stem = stem' := by
  have chars := congrArg String.toList same
  simp only [bundleName, String.toList_append, String.toList_ofList] at chars
  have whole := (List.append_inj' chars (by rw [length_digits, length_digits])).1
  exact String.toList_inj.mp (List.append_inj' whole rfl).1

/-- A secret that was made for the service it names. -/
def Owned (s : Secret) : Prop :=
  ∃ files, s.name = bundleName (s.service ++ "-files") files

theorem owned_of_made {service : Service} {s : Secret}
    (mine : request.service = service.canonicalName) (stem : request.stem = Staging.stem service)
    (ok : made tree request = .ok s) : s.service = service.canonicalName ∧ Owned s := by
  obtain ⟨files, rfl⟩ := secret_of_made ok
  refine ⟨mine, files, ?_⟩
  change bundleName request.stem files = bundleName (request.service ++ "-files") files
  rw [stem, mine, Staging.stem]

/-- Secrets of different services never share a name. -/
theorem service_of_name {s t : Secret} (owned : Owned s) (owned' : Owned t)
    (same : s.name = t.name) : s.service = t.service := by
  obtain ⟨files, name⟩ := owned
  obtain ⟨files', name'⟩ := owned'
  have stems := stem_of_bundleName (name.symm.trans (same.trans name'))
  have chars := congrArg String.toList stems
  rw [String.toList_append, String.toList_append] at chars
  exact String.toList_inj.mp (List.append_inj' chars rfl).1

theorem get?_keep_snoc (log : List Secret) (s : Secret) (name : String) :
    (keep .empty (log ++ [s])).get? name =
      if name = s.name then some s else (keep .empty log).get? name := by
  rw [keep_append]
  exact Table.get?_insert _ _ _ _

theorem mem_of_get?_keep {log : List Secret} {name : String} {s : Secret}
    (found : (keep .empty log).get? name = some s) : s ∈ log ∧ s.name = name := by
  induction log using List.reverseRecOn with
  | nil => contradiction
  | append_singleton log last ih =>
    rw [get?_keep_snoc] at found
    split at found
    · next same =>
      obtain rfl := Option.some.inj found
      exact ⟨by simp, same.symm⟩
    · obtain ⟨member, name⟩ := ih found
      exact ⟨by simp [member], name⟩

theorem get?_keep (state : SecretState) (log : List Secret) (name : String) :
    (keep state log).get? name = ((keep .empty log).get? name).or (state.get? name) := by
  induction log using List.reverseRecOn with
  | nil => rfl
  | append_singleton log last ih =>
    have after : (keep state (log ++ [last])).get? name =
        if name = last.name then some last else (keep state log).get? name := by
      rw [keep_append]
      exact Table.get?_insert _ _ _ _
    rw [after, get?_keep_snoc, ih]
    split
    · rfl
    · rfl

/-- Only what is there already can be kept without a trace. -/
theorem keep_eq_self_iff {state : SecretState} {log : List Secret} :
    keep state log = state ↔ ∀ b ∈ (keep .empty log).values, state.get? b.name = some b := by
  constructor
  · intro same b member
    obtain ⟨name, found⟩ := Table.mem_values_iff.mp member
    obtain ⟨-, rfl⟩ := mem_of_get?_keep found
    have held := get?_keep state log b.name
    rwa [same, found, Option.some_or] at held
  · intro held
    apply Table.ext_get?
    intro name
    rw [get?_keep]
    cases found : (keep .empty log).get? name with
    | none => rfl
    | some b =>
      obtain ⟨-, rfl⟩ := mem_of_get?_keep found
      exact (held b (Table.mem_values_iff.mpr ⟨_, found⟩)).symm

/-- What was kept already is kept again without a trace. -/
theorem keep_keep (state : SecretState) (log : List Secret) :
    keep (keep state log) log = keep state log := by
  apply keep_eq_self_iff.mpr
  intro b member
  obtain ⟨name, found⟩ := Table.mem_values_iff.mp member
  obtain ⟨-, rfl⟩ := mem_of_get?_keep found
  rw [get?_keep, found, Option.some_or]

theorem mem_of_mem_keep {log : List Secret} {s : Secret}
    (member : s ∈ (keep .empty log).values) : s ∈ log := by
  obtain ⟨name, found⟩ := Table.mem_values_iff.mp member
  exact (mem_of_get?_keep found).1

theorem filter_own {log : List Secret} {owner : String} (own : ∀ s ∈ log, s.service = owner) :
    (log.filter fun s => s.service = owner) = log :=
  List.filter_eq_self.mpr fun s member => decide_eq_true (own s member)

theorem filter_other {log : List Secret} {owner : String} (other : ∀ s ∈ log, s.service ≠ owner) :
    (log.filter fun s => s.service = owner) = [] :=
  List.filter_eq_nil_iff.mpr fun s member same => other s member (of_decide_eq_true same)

/-- Only the secrets of its owner decide what stands under a name. -/
theorem get?_keep_filter {log : List Secret} {name owner : String}
    (owned : ∀ s ∈ log, s.name = name → s.service = owner) :
    (keep .empty (log.filter fun s => s.service = owner)).get? name =
      (keep .empty log).get? name := by
  induction log using List.reverseRecOn with
  | nil => rfl
  | append_singleton log last ih =>
    have before := ih fun s member => owned s (by simp [member])
    rw [List.filter_append, get?_keep_snoc]
    by_cases mine : last.service = owner
    · simp [mine, get?_keep_snoc, before]
    · have other : name ≠ last.name := fun same => mine (owned last (by simp) same.symm)
      simp [mine, other, before]

/-- Writes in any order keep the same secrets, if each service's own writes are in one order. -/
theorem keep_eq_of_filter {log log' : List Secret} (owned : ∀ s ∈ log ++ log', Owned s)
    (same : ∀ owner, (log.filter fun s => s.service = owner) =
      log'.filter fun s => s.service = owner) : keep .empty log = keep .empty log' := by
  apply Table.ext_get?
  intro name
  have one : ∃ owner, ∀ s ∈ log ++ log', s.name = name → s.service = owner := by
    by_cases held : ∃ s ∈ log ++ log', s.name = name
    · obtain ⟨t, member, found⟩ := held
      exact ⟨t.service, fun s member' found' =>
        service_of_name (owned s member') (owned t member) (found'.trans found.symm)⟩
    · exact ⟨"", fun s member found => absurd ⟨s, member, found⟩ held⟩
  obtain ⟨owner, one⟩ := one
  rw [← get?_keep_filter fun s member => one s (List.mem_append_left _ member), same,
    get?_keep_filter fun s member => one s (List.mem_append_right _ member)]

/-- The secrets of a service are what it alone has written. -/
theorem secretsFor_keep {log : List Secret} (owned : ∀ s ∈ log, Owned s) (owner : String) :
    secretsFor (keep .empty log) owner =
      (keep .empty (log.filter fun s => s.service = owner)).values := by
  have one {s : Secret} (member : s ∈ log) (mine : s.service = owner) (name : String)
      (found : s.name = name) : ∀ t ∈ log, t.name = name → t.service = owner := by
    intro t member' found'
    rw [← mine]
    exact service_of_name (owned t member') (owned s member) (found'.trans found.symm)
  let part : SecretState := ⟨(keep .empty log).entries.filter fun e => e.2.service = owner,
    (keep .empty log).sorted.filter _⟩
  have whole : part = keep .empty (log.filter fun s => s.service = owner) := by
    apply Table.ext_get?
    intro name
    apply Option.ext
    intro s
    rw [← Table.mem_entries_iff, List.mem_filter, Table.mem_entries_iff]
    constructor
    · rintro ⟨found, mine⟩
      obtain ⟨member, named⟩ := mem_of_get?_keep found
      rw [get?_keep_filter (one member (of_decide_eq_true mine) name named)]
      exact found
    · intro found
      obtain ⟨member, named⟩ := mem_of_get?_keep found
      obtain ⟨member, mine⟩ := List.mem_filter.mp member
      rw [get?_keep_filter (one member (of_decide_eq_true mine) name named)] at found
      exact ⟨found, mine⟩
  rw [← whole, secretsFor, Table.values, Table.values, List.filter_map]
  rfl

end SecretStore
end Stevedore
