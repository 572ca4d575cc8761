import Stevedore.File.Tree
import Stevedore.Proofs.Activity
import Stevedore.Proofs.Table
import Mathlib.Data.List.Induction

/-!
The files of one directory. Names lead from it to locations of their own, a write changes what
stands under its name and nothing else, and of several writes to one name the last one counts.
-/
namespace Stevedore

namespace Path

/-- A text that is one component of a path, the name that it spells. -/
def IsName (name : String) : Prop := (⟨name⟩ : Path).components = [.name name.toList]

instance : DecidablePred IsName := fun _ => inferInstanceAs (Decidable (_ = _))

theorem pieces_of_plain {cs : List Char} (plain : '/' ∉ cs) : pieces cs = [cs] := by
  induction cs with
  | nil => rfl
  | cons c rest ih =>
    obtain ⟨different, plain⟩ := not_or.mp (List.mem_cons.not.mp plain)
    rw [pieces, if_neg (Ne.symm different), ih plain]

theorem pieces_ne_nil (cs : List Char) : pieces cs ≠ [] := by
  cases cs with
  | nil => simp [pieces]
  | cons c rest =>
    rw [pieces]
    split
    · simp
    · split <;> simp

theorem pieces_append (cs rest : List Char) :
    pieces (cs ++ '/' :: rest) = pieces cs ++ pieces rest := by
  induction cs with
  | nil => simp [pieces]
  | cons c cs ih =>
    rw [List.cons_append, pieces, pieces, ih]
    split
    · rfl
    · cases found : pieces cs with
      | nil => exact absurd found (pieces_ne_nil cs)
      | cons first others => rfl

theorem plain_of_mem_pieces {cs piece : List Char} (member : piece ∈ pieces cs) : '/' ∉ piece := by
  induction cs generalizing piece with
  | nil =>
    rw [List.mem_singleton.mp member]
    exact List.not_mem_nil
  | cons c rest ih =>
    rw [pieces] at member
    split at member
    · rcases List.mem_cons.mp member with rfl | later
      · exact List.not_mem_nil
      · exact ih later
    · next different =>
      split at member
      · rw [List.mem_singleton.mp member]
        simpa using Ne.symm different
      · next first others found =>
        rcases List.mem_cons.mp member with rfl | later
        · have tail : '/' ∉ first := ih (found ▸ List.mem_cons_self)
          simp [Ne.symm different, tail]
        · exact ih (found ▸ List.mem_cons_of_mem _ later)

theorem isName_iff {name : String} : IsName name ↔
    '/' ∉ name.toList ∧ isIdle name.toList = false ∧ name.toList ≠ ['.', '.'] := by
  unfold IsName components
  dsimp only
  generalize name.toList = cs
  constructor
  · intro single
    have member : Component.name cs ∈ headComponents cs ++
        ((body cs).filter fun piece => !isIdle piece).map componentOf := by
      rw [single]
      exact List.mem_singleton_self _
    rcases List.mem_append.mp member with start | rest
    · unfold headComponents at start
      split at start <;> simp at start
    · obtain ⟨piece, held, same⟩ := List.mem_map.mp rest
      obtain ⟨inside, solid⟩ := List.mem_filter.mp held
      unfold componentOf at same
      split at same
      · contradiction
      · next other =>
        obtain rfl := Component.name.inj same
        exact ⟨plain_of_mem_pieces inside, by simpa using solid, other⟩
  · rintro ⟨plain, solid, other⟩
    have start : head cs = [] := by
      unfold head
      split
      · simp at plain
      · simp [isIdle] at solid
      · simp at plain
      · rfl
    simp [headComponents, body, start, pieces_of_plain plain, solid, componentOf, other]

theorem IsName.plain {name : String} (named : IsName name) : '/' ∉ name.toList :=
  (isName_iff.mp named).1

theorem IsName.append {name extension : String} (named : IsName name)
    (plain : '/' ∉ extension.toList) (long : 2 < extension.toList.length) :
    IsName (name ++ extension) := by
  have length : 2 < (name ++ extension).toList.length := by
    rw [String.toList_append, List.length_append]
    omega
  refine isName_iff.mpr ⟨?_, ?_, ?_⟩
  · rw [String.toList_append, List.mem_append, not_or]
    exact ⟨named.plain, plain⟩
  · simp only [isIdle, Bool.or_eq_false_iff, decide_eq_false_iff_not]
    constructor <;>
      · intro short
        rw [short] at length
        simp at length
  · intro short
    rw [short] at length
    simp at length

/-- What stands before a name that is joined to a path. -/
def lead (p : Path) : List Char :=
  if p.text.isEmpty then []
  else if p.text.toList.getLast? = some '/' then p.text.toList
  else p.text.toList ++ ['/']

theorem lead_cases (p : Path) : p.lead = [] ∨ ∃ before, p.lead = before ++ ['/'] := by
  unfold lead
  split
  · exact .inl rfl
  · split
    · next last => exact .inr (List.getLast?_eq_some_iff.mp last)
    · exact .inr ⟨_, rfl⟩

theorem toList_join_relative (p : Path) {text : String}
    (relative : (⟨text⟩ : Path).isAbsolute = false) :
    (p.join text).text.toList = p.lead ++ text.toList := by
  unfold join lead
  rw [relative, Bool.false_or]
  split
  · rfl
  · split
    · rw [String.toList_append]
    · rw [String.toList_append, String.toList_append]
      rfl

theorem toList_join (p : Path) {name : String} (plain : '/' ∉ name.toList) :
    (p.join name).text.toList = p.lead ++ name.toList := by
  apply toList_join_relative
  rw [isAbsolute, beq_eq_false_iff_ne]
  intro first
  exact plain (List.mem_of_mem_head? first)

theorem join_inj {p : Path} {name name' : String} (plain : '/' ∉ name.toList)
    (plain' : '/' ∉ name'.toList) : p.join name = p.join name' ↔ name = name' := by
  constructor
  · intro same
    have chars : (p.join name).text.toList = (p.join name').text.toList := by rw [same]
    rw [toList_join p plain, toList_join p plain'] at chars
    exact String.toList_inj.mp (List.append_cancel_left chars)
  · rintro rfl
    rfl

/-- A joined name is one piece more than what it is joined to. -/
theorem exists_pieces_lead (p : Path) :
    ∃ above, ∀ cs, '/' ∉ cs → pieces (p.lead ++ cs) = above ++ [cs] := by
  rcases lead_cases p with none_ | ⟨before, some_⟩
  · exact ⟨[], fun cs plain => by rw [none_, List.nil_append, pieces_of_plain plain]; rfl⟩
  · refine ⟨pieces before, fun cs plain => ?_⟩
    rw [some_, List.append_assoc, List.singleton_append, pieces_append, pieces_of_plain plain]

theorem dropSlashes_of_last {cs : List Char} {c : Char} (ended : cs.getLast? = some c)
    (solid : c ≠ '/') : dropSlashes cs = cs := by
  obtain ⟨before, rfl⟩ := List.getLast?_eq_some_iff.mp ended
  simp [dropSlashes, solid]

theorem dropSlashes_append {cs : List Char} (some_ : cs ≠ []) :
    dropSlashes (cs ++ ['/']) = dropSlashes cs := by
  unfold dropSlashes
  rw [List.reverse_append, List.reverse_singleton, List.singleton_append,
    List.dropWhile_cons_of_pos (by simp)]
  split
  · exact List.take_append_of_le_length (List.length_pos_iff.mpr some_)
  · rfl

end Path

namespace File.Tree
variable {t t' : Tree} {p : Path} {l : Location}

theorem requireDirectory_ok_iff : t.requireDirectory l = .ok () ↔ t.entryAt l = some .directory := by
  unfold requireDirectory
  split <;> simp_all

/-- Every directory of the first tree is one of the second, and paths start at the same place. -/
structure Extends (t' t : Tree) : Prop where
  home : t'.workingDirectory = t.workingDirectory
  directories : ∀ l, t.entryAt l = some .directory → t'.entryAt l = some .directory

theorem walk_extends (more : t'.Extends t) {pieces : List (List Char)} {l' : Location}
    (ok : t.walk l pieces = .ok l') : t'.walk l pieces = .ok l' := by
  induction pieces generalizing l with
  | nil => exact ok
  | cons piece rest ih =>
    rw [walk] at ok ⊢
    obtain ⟨⟨⟩, here, later⟩ := except_bind_ok.mp ok
    refine except_bind_ok.mpr ⟨(), ?_, ?_⟩
    · exact requireDirectory_ok_iff.mpr (more.directories l (requireDirectory_ok_iff.mp here))
    · split_ifs at later ⊢
      · exact ih later
      · exact ih later
      · exact ih later

/-- What can be located can be located where more directories are, and at the same place. -/
theorem locate_extends (more : t'.Extends t) (ok : t.locate p = .ok l) : t'.locate p = .ok l := by
  unfold locate at ok ⊢
  dsimp only at ok ⊢
  rw [more.home]
  split_ifs at ok ⊢
  · exact walk_extends more ok
  · exact walk_extends more ok

theorem walk_append (t : Tree) (l : Location) (first second : List (List Char)) :
    t.walk l (first ++ second) = (t.walk l first >>= fun l' => t.walk l' second) := by
  induction first generalizing l with
  | nil => rfl
  | cons piece rest ih =>
    rw [List.cons_append, walk, walk]
    cases t.requireDirectory l with
    | error fault => rfl
    | ok _ =>
      simp only [ih]
      split_ifs <;> rfl

theorem walk_name {piece : List Char} {l' : Location} (solid : Path.isIdle piece = false)
    (other : piece ≠ ['.', '.']) (ok : t.walk l [piece] = .ok l') :
    l' = l ++ [String.ofList piece] := by
  rw [walk] at ok
  obtain ⟨-, -, later⟩ := except_bind_ok.mp ok
  rw [solid, if_neg (by simp), if_neg other] at later
  split_ifs at later
  exact (Except.ok.inj later).symm

theorem walk_of_locate (ok : t.locate p = .ok l) :
    t.walk (if p.isAbsolute then [] else t.workingDirectory) (Path.pieces p.text.toList) =
      .ok l := by
  unfold locate at ok
  dsimp only at ok
  split_ifs at ok with nul empty long absolute
  · rw [if_pos absolute]
    exact ok
  · rw [if_neg absolute]
    exact ok

/-- Names lead from a directory to locations that differ in the name only. -/
theorem exists_locate_join (t : Tree) (p : Path) : ∃ base : Except Fault Location,
    ∀ name l, Path.IsName name → t.locate (p.join name) = .ok l →
      ∃ l', base = .ok l' ∧ l = l' ++ [name] := by
  obtain ⟨above, pieces⟩ := Path.exists_pieces_lead p
  let start := if p.lead.head? == some '/' then [] else t.workingDirectory
  -- all names share the walk to the directory, and each adds one last step
  refine ⟨t.walk start above, fun name l named ok => ?_⟩
  obtain ⟨plain, solid, other⟩ := Path.isName_iff.mp named
  have chars := Path.toList_join p plain
  have absolute : (p.join name).isAbsolute = (p.lead.head? == some '/') := by
    rw [Path.isAbsolute, chars]
    cases p.lead with
    | nil =>
      rw [List.nil_append, List.head?_nil]
      refine beq_eq_false_iff_ne.mpr fun first => plain (List.mem_of_mem_head? first)
    | cons c rest => rfl
  have walked := walk_of_locate ok
  rw [chars, pieces _ plain, absolute, walk_append] at walked
  obtain ⟨l', base, last⟩ := except_bind_ok.mp walked
  refine ⟨l', base, ?_⟩
  rw [walk_name solid other last, String.ofList_toList]

theorem location_inj {name name' : String} {l' : Location} (named : Path.IsName name)
    (named' : Path.IsName name') (ok : t.locate (p.join name) = .ok l)
    (ok' : t.locate (p.join name') = .ok l') : l = l' ↔ name = name' := by
  obtain ⟨base, leads⟩ := exists_locate_join t p
  obtain ⟨b, found, rfl⟩ := leads name l named ok
  obtain ⟨b', found', rfl⟩ := leads name' l' named' ok'
  obtain rfl := Except.ok.inj (found.symm.trans found')
  simp

theorem lookup_filter_ne {entries : List (Location × Entry)} {l' : Location} (different : l' ≠ l) :
    (entries.filter fun e => e.1 != l).lookup l' = entries.lookup l' := by
  induction entries with
  | nil => rfl
  | cons e rest ih =>
    obtain ⟨k, v⟩ := e
    rw [List.filter_cons]
    by_cases same : k = l
    · subst same
      have test : (l' == k) = false := beq_eq_false_iff_ne.mpr different
      simp [ih, List.lookup_cons, test]
    · simp [same, ih, List.lookup_cons]

/-- A file that is put where no directory is stands there, and all else stays. -/
theorem entryAt_put {bytes : List UInt8} (free : t.entryAt l ≠ some .directory) (l' : Location) :
    (t.put l (.file bytes)).entryAt l' = if l' = l then some (.file bytes) else t.entryAt l' := by
  have outside : l.isPrefixOf t.workingDirectory = false := by
    rw [Bool.eq_false_iff]
    intro inside
    exact free (by rw [entryAt, if_pos inside])
  unfold entryAt put
  by_cases same : l' = l
  · subst same
    simp [outside]
  · have test : (l' == l) = false := beq_eq_false_iff_ne.mpr same
    simp only [List.lookup_cons, test, lookup_filter_ne same, if_neg same]

theorem directory_put {bytes : List UInt8} (free : t.entryAt l ≠ some .directory) (l' : Location) :
    (t.put l (.file bytes)).entryAt l' = some .directory ↔ t.entryAt l' = some .directory := by
  rw [entryAt_put free]
  split
  · next same =>
    subst same
    simp [free]
  · rfl

theorem put_extends {bytes : List UInt8} (free : t.entryAt l ≠ some .directory) :
    (t.put l (.file bytes)).Extends t where
  home := rfl
  directories l' := (directory_put free l').mpr

theorem extends_put {bytes : List UInt8} (free : t.entryAt l ≠ some .directory) :
    t.Extends (t.put l (.file bytes)) where
  home := rfl
  directories l' := (directory_put free l').mp

/-- A write puts a file where no directory is. -/
theorem put_of_write {bytes : List UInt8} (solid : Path.dropSlashes p.text.toList = p.text.toList)
    (ok : t.write p bytes = .ok t') : ∃ l, t.locate p = .ok l ∧ t.entryAt l ≠ some .directory ∧
      t' = t.put l (.file bytes) := by
  unfold write at ok
  dsimp only at ok
  rw [solid, String.ofList_toList] at ok
  obtain ⟨l, located, ok⟩ := except_bind_ok.mp ok
  refine ⟨l, located, ?_⟩
  split at ok
  · contradiction
  · next bytes' held =>
    rw [held]
    split at ok
    · contradiction
    · exact ⟨by simp, (Except.ok.inj ok).symm⟩
  · next none_ =>
    rw [none_]
    obtain ⟨-, -, ok⟩ := except_bind_ok.mp ok
    split at ok
    · contradiction
    · exact ⟨by simp, (Except.ok.inj ok).symm⟩

/-- What the file at a path holds; nothing where there is no file. -/
def contents (t : Tree) (p : Path) : List UInt8 := (t.read p).toOption.getD []

theorem contents_of_located (located : t.locate p = .ok l) : t.contents p =
    match t.entryAt l with
    | some (.file bytes) => bytes
    | _ => [] := by
  rw [contents, read, located]
  rcases held : t.entryAt l with _ | bytes | _ <;>
    simp [held, bind, Except.bind, Except.toOption]

theorem contents_of_lost {fault : Fault} (lost : t.locate p = .error fault) :
    t.contents p = [] := by
  rw [contents, read, lost]
  rfl

/-- No file is in the directory once it is there, whether it was there before or has to be made. -/
def Vacant (t : Tree) (directory : Path) : Prop :=
  ∀ made, t.makeAllDirectories directory = .ok made →
    ∀ name, Path.IsName name → made.isFile (directory.join name) = false

theorem walk_idle (t : Tree) {l l' : Location} {piece : List Char}
    (idle : Path.isIdle piece = true) (ok : t.walk l [piece] = .ok l') : l' = l := by
  rw [walk, idle, if_pos rfl] at ok
  obtain ⟨-, -, same⟩ := except_bind_ok.mp ok
  exact (Except.ok.inj same).symm

/-- A slash at the end of a path does not lead elsewhere. -/
theorem walk_of_walk_slash {l l' : Location} {cs : List Char}
    (ok : t.walk l (Path.pieces (cs ++ ['/'])) = .ok l') : t.walk l (Path.pieces cs) = .ok l' := by
  rw [Path.pieces_append, walk_append] at ok
  obtain ⟨l'', walked, last⟩ := except_bind_ok.mp ok
  rw [walk_idle t rfl last]
  exact walked

theorem locate_of_locate_slash {cs : List Char} (some_ : cs ≠ [])
    (ok : t.locate ⟨String.ofList (cs ++ ['/'])⟩ = .ok l) :
    t.locate ⟨String.ofList cs⟩ = .ok l := by
  have walked := walk_of_locate ok
  have absolute : (⟨String.ofList (cs ++ ['/'])⟩ : Path).isAbsolute =
      (⟨String.ofList cs⟩ : Path).isAbsolute := by
    rw [Path.isAbsolute, Path.isAbsolute, String.toList_ofList, String.toList_ofList,
      List.head?_append_of_ne_nil _ some_]
  rw [absolute, String.toList_ofList] at walked
  unfold locate at ok ⊢
  simp only [String.toList_ofList, String.ofList_append, String.utf8ByteSize_append] at ok ⊢
  split_ifs at ok with nul empty long
  all_goals
    rw [if_neg (by simp_all), if_neg (by simpa using some_), if_neg (by omega)]
    exact walk_of_walk_slash walked

theorem locate_dropSlashes (ok : t.locate p = .ok l) :
    t.locate ⟨String.ofList (Path.dropSlashes p.text.toList)⟩ = .ok l := by
  obtain ⟨text⟩ := p
  obtain ⟨cs, rfl⟩ : ∃ cs, text = String.ofList cs := ⟨text.toList, by simp⟩
  rw [String.toList_ofList]
  induction cs using List.reverseRecOn with
  | nil => exact ok
  | append_singleton before c ih =>
    by_cases slash : c = '/'
    · subst slash
      by_cases none_ : before = []
      · subst none_
        exact ok
      · rw [Path.dropSlashes_append none_]
        exact ih (locate_of_locate_slash none_ ok)
    · rw [Path.dropSlashes_of_last (by simp) slash]
      exact ok

/-- A directory that is there is left as it is. -/
theorem makeAllDirectories_of_isDirectory (there : t.isDirectory p = true) :
    t.makeAllDirectories p = .ok t := by
  have stands := there
  unfold isDirectory at there
  split at there
  · next l located =>
    have exists_ : t.makeDirectory p = .error .alreadyExists := by
      rw [makeDirectory, locate_dropSlashes located]
      simp_all [bind, Except.bind]
    have kept : t.ensureDirectory p = .ok t := by
      rw [ensureDirectory, exists_]
      simp [stands]
    rw [makeAllDirectories, makeDirectories, exists_]
    split
    · rfl
    · exact kept
  · contradiction

theorem vacant_of_isDirectory {directory : Path} (there : t.isDirectory directory = true)
    (empty : ∀ name, Path.IsName name → t.isFile (directory.join name) = false) :
    t.Vacant directory := by
  intro made ok
  rw [makeAllDirectories_of_isDirectory there] at ok
  obtain rfl := Except.ok.inj ok
  exact empty

theorem isFile_of_directories (only : ∀ e ∈ t.entries, e.2 = .directory) (p : Path) :
    t.isFile p = false := by
  unfold isFile
  split
  · next l located =>
    split
    · next bytes held =>
      unfold entryAt at held
      split at held
      · cases held
      · obtain ⟨before, after, split_, -⟩ := List.lookup_eq_some_iff.mp held
        have wrong := only (l, .file bytes) (by rw [split_]; simp)
        contradiction
    · rfl
  · rfl

theorem contents_of_not_isFile (none_ : t.isFile p = false) : t.contents p = [] := by
  cases located : t.locate p with
  | error fault => exact contents_of_lost located
  | ok l =>
    rw [contents_of_located located]
    rw [isFile, located] at none_
    cases held : t.entryAt l with
    | none => rfl
    | some e => cases e <;> simp_all

/-- A write in a directory changes what stands under its name, and nothing else. -/
theorem contents_write {directory : Path} {name : String} {bytes : List UInt8}
    (named : Path.IsName name) (ok : t.write (directory.join name) bytes = .ok t')
    {other : String} (named' : Path.IsName other) : t'.contents (directory.join other) =
      if other = name then bytes else t.contents (directory.join other) := by
  obtain ⟨plain, solid, -⟩ := Path.isName_iff.mp named
  have ended : Path.dropSlashes (directory.join name).text.toList =
      (directory.join name).text.toList := by
    rw [Path.toList_join directory plain]
    cases last : name.toList.getLast? with
    | none =>
      rw [List.getLast?_eq_none_iff.mp last] at solid
      simp [Path.isIdle] at solid
    | some c =>
      refine Path.dropSlashes_of_last (c := c) ?_ fun same => ?_
      · rw [List.getLast?_append, last]
        rfl
      · exact plain (same ▸ List.mem_of_getLast? last)
  obtain ⟨l, located, free, rfl⟩ := put_of_write ended ok
  cases found : t.locate (directory.join other) with
  | ok l' =>
    have same := location_inj named' named found located
    rw [contents_of_located found, contents_of_located (locate_extends (put_extends free) found),
      entryAt_put free]
    by_cases here : l' = l
    · rw [if_pos here, if_pos (same.mp here)]
    · rw [if_neg here, if_neg (fun equal => here (same.mpr equal))]
  | error fault =>
    -- no directory has come or gone, so that a path that led nowhere still does
    have different : other ≠ name := by
      rintro rfl
      cases located.symm.trans found
    rw [if_neg different, contents_of_lost found]
    cases found' : (t.put l (.file bytes)).locate (directory.join other) with
    | ok l' => cases (locate_extends (extends_put free) found').symm.trans found
    | error fault' => exact contents_of_lost found'

/-- Writes files into a directory, one after the other. -/
def writeAll (t : Tree) (directory : Path) (files : List (String × List UInt8)) :
    Except Fault Tree :=
  files.foldlM (fun t file => t.write (directory.join file.1) file.2) t

theorem writeAll_append (t : Tree) (directory : Path) (first second : List (String × List UInt8)) :
    t.writeAll directory (first ++ second) =
      (t.writeAll directory first >>= fun t => t.writeAll directory second) :=
  List.foldlM_append

/-- Of several writes to one name the last one counts. -/
theorem contents_writeAll {directory : Path} {files : List (String × List UInt8)}
    (named : ∀ file ∈ files, Path.IsName file.1) (ok : t.writeAll directory files = .ok t')
    {name : String} (named' : Path.IsName name) : t'.contents (directory.join name) =
      (files.reverse.lookup name).getD (t.contents (directory.join name)) := by
  induction files generalizing t with
  | nil =>
    cases ok
    rfl
  | cons file rest ih =>
    obtain ⟨first, bytes⟩ := file
    obtain ⟨u, written, later⟩ := except_bind_ok.mp (List.foldlM_cons.symm.trans ok)
    have own := contents_write (named _ List.mem_cons_self) written named'
    rw [ih (fun f member => named f (List.mem_cons_of_mem _ member)) later, own,
      List.reverse_cons, List.lookup_append, Table.lookup_cons_eq]
    cases rest.reverse.lookup name with
    | some bytes => rfl
    | none => by_cases same : name = first <;> simp [same]

theorem contents_of_written {directory : Path} {files : List (String × List UInt8)} {name : String}
    {bytes : List UInt8} (named : ∀ file ∈ files, Path.IsName file.1)
    (ok : t.writeAll directory files = .ok t') (member : (name, bytes) ∈ files)
    (unique : ∀ other, (name, other) ∈ files → other = bytes) :
    t'.contents (directory.join name) = bytes := by
  rw [contents_writeAll named ok (named _ member)]
  cases found : files.reverse.lookup name with
  | none => simpa using List.lookup_eq_none_iff.mp found _ (List.mem_reverse.mpr member)
  | some other =>
    obtain ⟨before, after, split_, -⟩ := List.lookup_eq_some_iff.mp found
    have held : (name, other) ∈ files := by
      rw [← List.mem_reverse, split_]
      simp
    exact unique other held

theorem contents_of_unwritten {directory : Path} {files : List (String × List UInt8)}
    {name : String} (named : ∀ file ∈ files, Path.IsName file.1) (named' : Path.IsName name)
    (ok : t.writeAll directory files = .ok t') (absent : ∀ bytes, (name, bytes) ∉ files) :
    t'.contents (directory.join name) = t.contents (directory.join name) := by
  have none_ : files.reverse.lookup name = none := by
    refine List.lookup_eq_none_iff.mpr fun file member => ?_
    rw [bne_iff_ne]
    rintro rfl
    exact absent _ (List.mem_reverse.mp member)
  rw [contents_writeAll named ok named', none_]
  rfl

end File.Tree
end Stevedore
