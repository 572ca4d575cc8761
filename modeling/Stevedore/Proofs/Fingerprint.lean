import Stevedore.Proofs.Secrets

/-!
When bundles share a name. A fingerprint shows where a path ends, by a zero byte, but not where
contents end. Contents that go on like the files that follow in another bundle give it the same
fingerprint, and nothing else does.
-/
namespace Stevedore

namespace Text

theorem toList_loop (bytes : ByteArray) (i : Nat) (read : List UInt8) :
    ByteArray.toList.loop bytes i read = read.reverse ++ bytes.data.toList.drop i := by
  fun_induction ByteArray.toList.loop bytes i read with
  | case1 i read inside ih =>
    have held : i < bytes.data.toList.length := inside
    rw [ih, List.drop_eq_getElem_cons held, List.reverse_cons, List.append_assoc,
      ByteArray.get!, getElem!_pos bytes.data i inside]
    rfl
  | case2 i read outside =>
    have ended : bytes.data.toList.length ≤ i := Nat.le_of_not_lt outside
    rw [List.drop_eq_nil_of_le ended, List.append_nil]

theorem toList_eq_data (bytes : ByteArray) : bytes.toList = bytes.data.toList := by
  rw [ByteArray.toList, toList_loop, List.drop_zero]
  rfl

theorem toList_toUTF8 (s : String) :
    s.toUTF8.toList = s.toList.flatMap String.utf8EncodeChar := by
  have whole : s.toUTF8 = (s.toList.flatMap String.utf8EncodeChar).toByteArray :=
    String.utf8Encode_toList.symm
  rw [toList_eq_data, whole, List.toList_data_toByteArray]

theorem toUTF8_inj {s t : String} (same : s.toUTF8.toList = t.toUTF8.toList) : s = t := by
  rw [toList_eq_data, toList_eq_data, Array.toList_inj] at same
  exact String.toByteArray_inj.mp (ByteArray.ext same)

theorem zero_eq_ofNat_iff (n : Nat) : 0 = UInt8.ofNat n ↔ n % 256 = 0 := by
  rw [← UInt8.toNat_inj, UInt8.toNat_ofNat']
  exact eq_comm

theorem zero_mem_utf8EncodeChar {c : Char} (member : 0 ∈ String.utf8EncodeChar c) : c = '\x00' := by
  have none_ : c.val.toNat = 0 := by
    simp only [String.utf8EncodeChar] at member
    -- a character of several bytes has the highest bit in each of them
    split at member
    on_goal 2 => split at member
    on_goal 3 => split at member
    all_goals
      simp only [List.mem_cons, List.not_mem_nil, or_false, zero_eq_ofNat_iff] at member
      omega
  exact Char.ext (UInt32.toNat.inj none_)

theorem zero_not_mem_toUTF8 {s : String} (plain : '\x00' ∉ s.toList) : 0 ∉ s.toUTF8.toList := by
  rw [toList_toUTF8]
  intro member
  obtain ⟨c, inside, zero⟩ := List.mem_flatMap.mp member
  exact plain (zero_mem_utf8EncodeChar zero ▸ inside)

end Text

/-- The first of the separators ends what comes before it. -/
theorem append_cons_inj {α : Type} {separator : α} {a b rest rest' : List α} (left : separator ∉ a)
    (right : separator ∉ b) :
    a ++ separator :: rest = b ++ separator :: rest' ↔ a = b ∧ rest = rest' := by
  induction a generalizing b with
  | nil =>
    cases b with
    | nil => simp
    | cons head tail => simp [(List.ne_of_not_mem_cons right)]
  | cons first others ih =>
    cases b with
    | nil => simp [(List.ne_of_not_mem_cons left).symm]
    | cons head tail =>
      have step := ih (List.not_mem_of_not_mem_cons left) (List.not_mem_of_not_mem_cons right)
        (b := tail)
      rw [List.cons_append, List.cons_append, List.cons.injEq, step, List.cons.injEq, and_assoc]

namespace SecretStore

/-- What a bundle holds: destinations and contents, in order. -/
abbrev Held := List (String × List UInt8)

def held (files : List StagedFile) : Held := files.map fun f => (f.pair.destination.text, f.bytes)

def Held.encoded (h : Held) : List UInt8 := h.flatMap fun f => f.1.toUTF8.toList ++ 0 :: f.2

theorem fingerprint_eq (files : List StagedFile) : fingerprint files = (held files).encoded := by
  rw [held, Held.encoded, List.flatMap_map]
  rfl

namespace Held

theorem encoded_cons (destination : String) (bytes : List UInt8) (rest : Held) :
    encoded ((destination, bytes) :: rest) =
      destination.toUTF8.toList ++ 0 :: (bytes ++ rest.encoded) := by
  simp [encoded]

/-- The contents of one file go on like the files that follow in another bundle. -/
inductive Imitates : Held → Held → Prop where
  | here (destination : String) (bytes tail : List UInt8) (others later : Held)
      (longer : tail ≠ []) (alike : later.encoded = tail ++ others.encoded) :
      Imitates ((destination, bytes ++ tail) :: others) ((destination, bytes) :: later)
  | there (f : String × List UInt8) {h h' : Held} (rest : Imitates h h') :
      Imitates (f :: h) (f :: h')

theorem encoded_of_imitates {h h' : Held} (imitates : Imitates h h') : h.encoded = h'.encoded := by
  induction imitates with
  | here destination bytes tail others later longer alike =>
    rw [encoded_cons, encoded_cons, alike, List.append_assoc]
  | there f rest ih => rw [encoded_cons, encoded_cons, ih]

/-- No destination has the character that ends it. -/
def Plain (h : Held) : Prop := ∀ f ∈ h, '\x00' ∉ f.1.toList

instance (h : Held) : Decidable h.Plain := inferInstanceAs (Decidable (∀ f ∈ h, _))

theorem plain_cons {f : String × List UInt8} {h : Held} :
    Plain (f :: h) ↔ '\x00' ∉ f.1.toList ∧ h.Plain := List.forall_mem_cons

theorem encoded_cons_eq_iff {destination destination' : String} {bytes bytes' : List UInt8}
    {rest others : Held} (plain : Plain ((destination, bytes) :: rest))
    (plain' : Plain ((destination', bytes') :: others)) :
    encoded ((destination, bytes) :: rest) = encoded ((destination', bytes') :: others) ↔
      destination = destination' ∧ bytes ++ rest.encoded = bytes' ++ others.encoded := by
  have left := Text.zero_not_mem_toUTF8 (plain_cons.mp plain).1
  have right := Text.zero_not_mem_toUTF8 (plain_cons.mp plain').1
  rw [encoded_cons, encoded_cons, append_cons_inj left right]
  exact and_congr_left fun _ => ⟨Text.toUTF8_inj, fun same => by rw [same]⟩

/-- Different files have one encoding just if, where the bundles part, contents of the one go on
like the files of the other. -/
theorem encoded_eq_iff {h h' : Held} (plain : h.Plain) (plain' : h'.Plain) :
    h.encoded = h'.encoded ↔ h = h' ∨ Imitates h h' ∨ Imitates h' h := by
  constructor
  · intro same
    induction h generalizing h' with
    | nil =>
      cases h' with
      | nil => exact .inl rfl
      | cons f rest => simp [encoded] at same
    | cons f rest ih =>
      cases h' with
      | nil => simp [encoded] at same
      | cons g others =>
        obtain ⟨destination, bytes⟩ := f
        obtain ⟨destination', bytes'⟩ := g
        obtain ⟨rfl, contents⟩ := (encoded_cons_eq_iff plain plain').mp same
        by_cases equal : bytes = bytes'
        · subst equal
          have later := ih (plain_cons.mp plain).2 (plain_cons.mp plain').2
            (List.append_cancel_left contents)
          rcases later with rfl | imitates | imitates
          · exact .inl rfl
          · exact .inr (.inl (.there _ imitates))
          · exact .inr (.inr (.there _ imitates))
        -- the shorter contents end where the other bundle's go on
        · rcases List.append_eq_append_iff.mp contents with ⟨tail, rfl, alike⟩ | ⟨tail, rfl, alike⟩
          · have longer : tail ≠ [] := fun none_ => equal (by rw [none_, List.append_nil])
            exact .inr (.inr (.here destination bytes tail others rest longer alike))
          · have longer : tail ≠ [] := fun none_ => equal (by rw [none_, List.append_nil])
            exact .inr (.inl (.here destination bytes' tail rest others longer alike))
  · rintro (rfl | imitates | imitates)
    · rfl
    · exact encoded_of_imitates imitates
    · exact (encoded_of_imitates imitates).symm

theorem not_imitates_of_text {h h' : Held} (plain : h.Plain) (text : ∀ f ∈ h, 0 ∉ f.2)
    (same : h.map (·.1) = h'.map (·.1)) : ¬ Imitates h h' := by
  intro imitates
  induction imitates with
  | there f rest ih =>
    obtain ⟨-, same⟩ := List.cons.inj same
    exact ih (plain_cons.mp plain).2 (List.forall_mem_cons.mp text).2 same
  | here destination bytes tail others later longer alike =>
    obtain ⟨-, same⟩ := List.cons.inj same
    cases others with
    | nil =>
      obtain rfl : later = [] := List.map_eq_nil_iff.mp same.symm
      exact longer (List.append_eq_nil_iff.mp alike.symm).1
    | cons f others =>
      obtain ⟨g, later, rfl, first, -⟩ := List.map_eq_cons_iff.mp same.symm
      obtain ⟨path, bytes'⟩ := f
      obtain ⟨path', bytes''⟩ := g
      obtain rfl : path' = path := first
      have ended : 0 ∉ path'.toUTF8.toList :=
        Text.zero_not_mem_toUTF8 (plain_cons.mp (plain_cons.mp plain).2).1
      have gone : 0 ∉ tail ++ path'.toUTF8.toList := by
        have textual := (List.forall_mem_cons.mp text).1
        simp only [List.mem_append, not_or] at textual ⊢
        exact ⟨textual.2, ended⟩
      rw [encoded_cons, encoded_cons, ← List.append_assoc, append_cons_inj ended gone] at alike
      -- the path that follows would go on with itself
      exact longer (List.self_eq_append_left.mp alike.1)

end Held

def digits (message : List UInt8) : List Char :=
  (Text.hexBytes (Digest.Sha256.digest message)).take digestDigits

theorem same_name_iff {stem : String} {files files' : List StagedFile} :
    bundleName stem files = bundleName stem files' ↔
      digits (fingerprint files) = digits (fingerprint files') := by
  constructor
  · intro same
    have chars := congrArg String.toList same
    simp only [bundleName, String.toList_append, String.toList_ofList] at chars
    exact List.append_cancel_left chars
  · intro same
    exact congrArg (fun d => stem ++ "-" ++ String.ofList d) same

/-- What is hashed for two bundles is kept apart by the digits. -/
def Apart (files files' : List StagedFile) : Prop :=
  digits (fingerprint files) = digits (fingerprint files') → fingerprint files = fingerprint files'

def Alike (files files' : List StagedFile) : Prop :=
  held files = held files' ∨ (held files).Imitates (held files') ∨
    (held files').Imitates (held files)

theorem fingerprint_eq_iff {files files' : List StagedFile} (plain : (held files).Plain)
    (plain' : (held files').Plain) :
    fingerprint files = fingerprint files' ↔ Alike files files' := by
  rw [fingerprint_eq, fingerprint_eq]
  exact Held.encoded_eq_iff plain plain'

/-- Where the destinations are the same and no contents have a zero byte, nothing different is hashed
alike. -/
theorem held_of_fingerprint {files files' : List StagedFile} (plain : (held files).Plain)
    (plain' : (held files').Plain)
    (destinations : (held files).map (·.1) = (held files').map (·.1))
    (text : ∀ f ∈ held files ++ held files', 0 ∉ f.2)
    (same : fingerprint files = fingerprint files') : held files = held files' := by
  obtain ⟨here, there⟩ := List.forall_mem_append.mp text
  rcases (fingerprint_eq_iff plain plain').mp same with equal | imitates | imitates
  · exact equal
  · exact absurd imitates (Held.not_imitates_of_text plain here destinations)
  · exact absurd imitates (Held.not_imitates_of_text plain' there destinations.symm)

/-- What is hashed for two bundles is the same just for the same destinations with the same contents
in the same order, and where contents imitate files; where the digits keep apart what is hashed, this
decides as well whether the bundles share a name. -/
theorem bundleName_eq_iff (stem : String) (files files' : List StagedFile)
    (plain : (held files).Plain) (plain' : (held files').Plain) :
    (fingerprint files = fingerprint files' ↔ Alike files files') ∧
    (Apart files files' →
      (bundleName stem files = bundleName stem files' ↔ Alike files files')) := by
  have decided := fingerprint_eq_iff plain plain'
  refine ⟨decided, fun apart => ?_⟩
  rw [← decided, same_name_iff]
  exact ⟨apart, fun equal => by rw [equal]⟩

end SecretStore

section Twins
open SecretStore

def fileAt (destination contents : String) : StagedFile :=
  ⟨.verbatim destination, contents.toUTF8.toList⟩

def twinFiles : List StagedFile := [fileAt "/web/a.yml" "x", fileAt "/web/b.yml" "y"]

/-- The first file ends with the beginning of the path that follows in the other bundle. -/
def otherTwinFiles : List StagedFile := [fileAt "/web/a.yml" "x/web", fileAt "/b.yml" "y"]

def wholeFile : List StagedFile := [fileAt "/web/a.yml" "x/web/b.yml\x00y"]

theorem twins_share_name : held twinFiles ≠ held otherTwinFiles ∧
    fingerprint twinFiles = fingerprint otherTwinFiles ∧
    bundleName "web-files" twinFiles = bundleName "web-files" otherTwinFiles := by
  have same : fingerprint twinFiles = fingerprint otherTwinFiles := by decide +kernel
  refine ⟨by decide +kernel, same, ?_⟩
  rw [same_name_iff, same]

theorem whole_shares_name : (held wholeFile).Plain ∧ (held twinFiles).Plain ∧
    Apart wholeFile twinFiles ∧ fingerprint wholeFile = fingerprint twinFiles ∧
    bundleName "web-files" wholeFile = bundleName "web-files" twinFiles := by
  have plain : (held wholeFile).Plain := by decide +kernel
  have plain' : (held twinFiles).Plain := by decide +kernel
  have whole : held wholeFile =
      [("/web/a.yml", "x".toUTF8.toList ++ "/web/b.yml\x00y".toUTF8.toList)] := by decide +kernel
  have alike : Alike wholeFile twinFiles := by
    rw [Alike, whole]
    exact .inr (.inl (.here _ _ _ _ _ (by decide +kernel) (by decide +kernel)))
  obtain ⟨hashed, named⟩ := bundleName_eq_iff "web-files" wholeFile twinFiles plain plain'
  have apart : Apart wholeFile twinFiles := fun _ => hashed.mpr alike
  exact ⟨plain, plain', apart, hashed.mpr alike, (named apart).mpr alike⟩

end Twins
end Stevedore
