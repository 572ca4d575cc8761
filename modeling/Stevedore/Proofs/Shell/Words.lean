import Mathlib.Data.List.Basic

/-!
How a shell divides a line into the words of one command. A word is made of characters and of command
substitutions, of which the text between the parentheses is kept. A line has no words here if what it
means depends on more than the line, on variables, names of files or home directories, if it holds
several commands, or if shells need not agree about it, as where a backslash or a dollar sign is last.

Words that are read back from their own line, with a blank between them, are plain. Nothing has to be
said about quotes, escapes or comments for this: what is read is never longer than its line, and each
of them leaves it shorter.
-/
namespace Stevedore.Shell

inductive Piece where
  | char (c : Char)
  | command (text : List Char)
  deriving DecidableEq

abbrev Word := List Piece

def literal (text : String) : Word := text.toList.map .char

def Piece.print : Piece → List Char
  | .char c => [c]
  | .command text => '$' :: '(' :: (text ++ [')'])

def printWord (w : Word) : List Char := w.flatMap Piece.print

def printLine (ws : List Word) : List Char := [' '].intercalate (ws.map printWord)

section Substitutions

/-- What is open within a substitution. -/
inductive Nest where
  | paren
  | quotes
  deriving DecidableEq

/-- What the characters before say about the next one. -/
inductive Hold where
  | none
  | single
  | escaped
  | dollar
  deriving DecidableEq

structure Depth where
  nests : List Nest
  hold : Hold

/-- A comment may begin behind this text. -/
def startsWord (text : List Char) : Bool :=
  text.getLast?.all fun c => [' ', '\t', '\n', ';', '|', '&', '<', '>', '(', ')'].contains c

namespace Depth

/-- The parentheses of a substitution are those outside quotes and escapes. One that follows the
opening one at once would make it arithmetic. -/
def inParen (d : Depth) (text : List Char) (c : Char) : Option Depth :=
  if c = '\\' then some { d with hold := .escaped }
  else if c = '\x27' then some { d with hold := .single }
  else if c = '"' then some ⟨.quotes :: d.nests, .none⟩
  else if c = '(' then if text.isEmpty then none else some ⟨.paren :: d.nests, .none⟩
  else if c = ')' then some ⟨d.nests.tail, .none⟩
  else if c = '\x60' ∨ (c = '#' ∧ startsWord text) then none
  else some { d with hold := .none }

def inQuotes (d : Depth) (c : Char) : Option Depth :=
  if c = '\\' then some { d with hold := .escaped }
  else if c = '"' then some ⟨d.nests.tail, .none⟩
  else if c = '(' ∧ d.hold = .dollar then some ⟨.paren :: d.nests, .none⟩
  else if c = '$' then some { d with hold := .dollar }
  else if c = '\x60' then none
  else some { d with hold := .none }

def step (d : Depth) (text : List Char) (c : Char) : Option Depth :=
  match d.hold, d.nests with
  | .single, _ => some { d with hold := if c = '\x27' then .none else .single }
  | .escaped, _ => some { d with hold := .none }
  | _, .quotes :: _ => d.inQuotes c
  | _, _ => d.inParen text c

end Depth
end Substitutions

inductive Mode where
  | bare
  | single
  | double
  | escaped (quoted : Bool)
  | dollar (quoted : Bool)
  | comment
  | command (quoted : Bool) (depth : Depth) (text : List Char)

/-- The words before, the word that is being read, and how the next character is meant. -/
structure Reading where
  words : List Word
  word : Option Word
  mode : Mode

/-- Characters that make the meaning of a line depend on more than the line, or end its command. -/
def refused : List Char :=
  ['\x00', '\n', '|', '&', ';', '<', '>', '(', ')', '\x60', '*', '?', '[']

/-- Characters that do not stand for themselves outside quotes. -/
def active : List Char := [' ', '\t', '\x27', '"', '\\', '$'] ++ refused

namespace Reading

def start : Reading := ⟨[], none, .bare⟩

def add (r : Reading) (p : Piece) (mode : Mode) : Reading :=
  { r with word := some (r.word.getD [] ++ [p]), mode }

def quote (r : Reading) (mode : Mode) : Reading := { r with word := some (r.word.getD []), mode }

def close (r : Reading) : Reading := ⟨r.words ++ r.word.toList, none, .bare⟩

def unquoted (r : Reading) (c : Char) : Option Reading :=
  if c = ' ' ∨ c = '\t' then some r.close
  else if c = '\x27' then some (r.quote .single)
  else if c = '"' then some (r.quote .double)
  else if c = '\\' then some { r with mode := .escaped false }
  else if c = '$' then some { r with mode := .dollar false }
  else if c ∈ refused then none
  else if r.word = none ∧ c = '#' then some { r with mode := .comment }
  else if r.word = none ∧ c = '~' then none
  else some (r.add (.char c) .bare)

def quoted (r : Reading) (c : Char) : Option Reading :=
  if c = '"' then some { r with mode := .bare }
  else if c = '\\' then some { r with mode := .escaped true }
  else if c = '$' then some { r with mode := .dollar true }
  else if c = '\x60' then none
  else some (r.add (.char c) .double)

/-- In quotes a backslash stands for itself unless what follows would be active there. -/
def escapedQuoted (r : Reading) (c : Char) : Reading :=
  if c = '\n' then { r with mode := .double }
  else if c ∈ ['$', '\x60', '"', '\\'] then r.add (.char c) .double
  else (r.add (.char '\\') .double).add (.char c) .double

def step (r : Reading) (c : Char) : Option Reading :=
  match r.mode with
  | .bare => r.unquoted c
  | .single => some (if c = '\x27' then { r with mode := .bare } else r.add (.char c) .single)
  | .double => r.quoted c
  | .escaped false => some (if c = '\n' then { r with mode := .bare } else r.add (.char c) .bare)
  | .escaped true => some (r.escapedQuoted c)
  | .dollar quoted =>
    if c = '(' then some { r with mode := .command quoted ⟨[.paren], .none⟩ [] } else none
  | .comment => if c = '\n' then none else some r
  | .command quoted depth text => (depth.step text c).map fun depth =>
    if c = ')' ∧ depth.nests = [] then r.add (.command text) (if quoted then .double else .bare)
    else { r with mode := .command quoted depth (text ++ [c]) }

def run (r : Reading) (cs : List Char) : Option Reading := cs.foldlM step r

def ended? (r : Reading) : Option (List Word) :=
  match r.mode with
  | .bare | .comment => some (r.words ++ r.word.toList)
  | _ => none

end Reading

def words? (line : String) : Option (List Word) := (Reading.start.run line.toList).bind Reading.ended?

example : words? "a\t'b #'\"$(c \"$(d)\" ')')\" # e" = some
    [[.char 'a'], [.char 'b', .char ' ', .char '#', .command "c \"$(d)\" ')'".toList]] := by
  decide +kernel

/-- The word is what a shell makes of its text. -/
structure Plain (w : Word) : Prop where
  some_ : w ≠ []
  inactive : ∀ c, .char c ∈ w → c ∉ active
  opening : ∀ c, w.head? = some (.char c) → c ≠ '#' ∧ c ≠ '~'

theorem plain_literal_iff {text : String} : Plain (literal text) ↔
    text.toList.head? ∉ [none, some '#', some '~'] ∧ ∀ c ∈ text.toList, c ∉ active := by
  constructor
  · rintro ⟨some_, inactive, opening⟩
    refine ⟨?_, fun c member => inactive c (List.mem_map_of_mem member)⟩
    cases first : text.toList.head? with
    | none => simp [literal, List.head?_eq_none_iff.mp first] at some_
    | some c => simpa using opening c (by rw [literal, List.head?_map, first]; rfl)
  · rintro ⟨first, inactive⟩
    refine ⟨?_, ?_, ?_⟩
    · intro empty
      simp [List.map_eq_nil_iff.mp empty] at first
    · intro c member
      obtain ⟨c, held, ⟨⟩⟩ := List.mem_map.mp member
      exact inactive c held
    · intro c lead
      rw [literal, List.head?_map] at lead
      obtain ⟨c, held, ⟨⟩⟩ := Option.map_eq_some_iff.mp lead
      simpa [held] using first

section Sizes

/-- What has been read of a word that may follow. -/
def Mode.pending : Mode → Nat
  | .escaped true | .dollar _ => 1
  | .command _ _ text => text.length + 2
  | _ => 0

namespace Mode

@[simp] theorem pending_bare : bare.pending = 0 := rfl

@[simp] theorem pending_single : single.pending = 0 := rfl

@[simp] theorem pending_double : double.pending = 0 := rfl

@[simp] theorem pending_comment : comment.pending = 0 := rfl

@[simp] theorem pending_escaped (quoted : Bool) : (escaped quoted).pending = quoted.toNat := by
  cases quoted <;> rfl

@[simp] theorem pending_dollar (quoted : Bool) : (dollar quoted).pending = 1 := rfl

@[simp] theorem pending_command (quoted : Bool) (depth : Depth) (text : List Char) :
    (command quoted depth text).pending = text.length + 2 := rfl

end Mode

/-- Words with a blank behind each. -/
def printWords (ws : List Word) : List Char := ws.flatMap fun w => printWord w ++ [' ']

/-- The length of a line that is enough for what has been read. -/
def Reading.size (r : Reading) : Nat :=
  (printWords r.words).length + (printWord (r.word.getD [])).length + r.mode.pending

/-- Nothing has been read but plain words, with one blank between them. -/
structure Neat (r : Reading) : Prop where
  words : ∀ w ∈ r.words, Plain w
  word : ∀ w ∈ r.word, Plain w
  mode : r.mode = .bare ∨ r.mode = .dollar false ∨ ∃ depth text, r.mode = .command false depth text

theorem printWords_append (ws ws' : List Word) :
    printWords (ws ++ ws') = printWords ws ++ printWords ws' := List.flatMap_append

theorem printWords_singleton (w : Word) : printWords [w] = printWord w ++ [' '] :=
  List.flatMap_singleton _ w

variable {r r' : Reading} {c : Char}

namespace Reading

theorem size_add (r : Reading) (p : Piece) (mode : Mode) : (r.add p mode).size + r.mode.pending =
    r.size + p.print.length + mode.pending := by
  simp only [size, add, Option.getD_some, printWord, List.flatMap_append, List.flatMap_cons,
    List.flatMap_nil, List.append_nil, List.length_append]
  omega

theorem size_char (r : Reading) (c : Char) (mode : Mode) :
    (r.add (.char c) mode).size + r.mode.pending = r.size + 1 + mode.pending := r.size_add _ mode

theorem size_mode (r : Reading) (mode : Mode) :
    ({ r with mode } : Reading).size + r.mode.pending = r.size + mode.pending := by
  simp only [size]
  omega

theorem size_quote (r : Reading) (mode : Mode) :
    (r.quote mode).size + r.mode.pending = r.size + mode.pending := by
  simp only [size, quote, Option.getD_some]
  omega

theorem size_close (r : Reading) :
    r.close.size + r.mode.pending = r.size + r.word.toList.length := by
  have nothing : (printWord []).length = 0 := rfl
  cases held : r.word with
  | none => simp [size, close, held, nothing]
  | some w =>
    have last : (printWords (r.words ++ [w])).length =
        (printWords r.words).length + ((printWord w).length + 1) := by
      rw [printWords_append, printWords_singleton, List.length_append, List.length_append,
        List.length_singleton]
    simp [size, close, held, nothing, last]
    omega

end Reading

/-- A step reads one character, and keeps a reading neat unless what it reads got no longer. -/
structure Advances (r r' : Reading) : Prop where
  size : r'.size ≤ r.size + 1
  neat : Neat r → r'.size = r.size + 1 → Neat r'

theorem Advances.of_idle (idle : r'.size ≤ r.size) : Advances r r' where
  size := by omega
  neat _ grown := by omega

theorem Advances.of_untidy (size : r'.size ≤ r.size + 1)
    (untidy : r.mode ≠ .bare ∧ r.mode ≠ .dollar false ∧
      ∀ depth text, r.mode ≠ .command false depth text) : Advances r r' where
  size := size
  neat neat := by
    rcases neat.mode with bare | dollar | ⟨depth, text, command⟩
    · exact absurd bare untidy.1
    · exact absurd dollar untidy.2.1
    · exact absurd command (untidy.2.2 depth text)

theorem plain_append {w : Word} {p : Piece} (plain : Plain w)
    (inactive : ∀ c, p = .char c → c ∉ active) : Plain (w ++ [p]) where
  some_ := by simp
  inactive := by
    intro c member
    rcases List.mem_append.mp member with early | last
    · exact plain.inactive c early
    · exact inactive c (List.mem_singleton.mp last).symm
  opening := by
    rw [List.head?_append_of_ne_nil _ plain.some_]
    exact plain.opening

theorem plain_add {p : Piece} {mode : Mode} (words : ∀ w ∈ r.word, Plain w)
    (inactive : ∀ c, p = .char c → c ∉ active)
    (opening : r.word = none → ∀ c, p = .char c → c ≠ '#' ∧ c ≠ '~') :
    ∀ w ∈ (r.add p mode).word, Plain w := by
  intro w held
  obtain rfl := Option.some.inj held
  cases before : r.word with
  | none =>
    exact ⟨by simp, fun c member => inactive c (List.mem_singleton.mp member).symm,
      by simpa using opening before⟩
  | some w => exact plain_append (words w before) inactive

theorem plain_close (neat : Neat r) : ∀ w ∈ r.close.words, Plain w := by
  intro w member
  rcases List.mem_append.mp member with early | last
  · exact neat.words w early
  · exact neat.word w (Option.mem_toList.mp last)

theorem advances_unquoted (bare : r.mode = .bare) (ok : r.unquoted c = some r') :
    Advances r r' := by
  have pending : r.mode.pending = 0 := by rw [bare, Mode.pending_bare]
  unfold Reading.unquoted at ok
  split_ifs at ok with blank single double escape dollar banned comment tilde
  · obtain rfl := Option.some.inj ok
    have size := r.size_close
    have held : r.word.toList.length ≤ 1 := by cases r.word <;> simp
    exact ⟨by omega, fun neat _ => ⟨plain_close neat, by simp [Reading.close], .inl rfl⟩⟩
  · obtain rfl := Option.some.inj ok
    have size := r.size_quote .single
    rw [Mode.pending_single] at size
    exact .of_idle (by omega)
  · obtain rfl := Option.some.inj ok
    have size := r.size_quote .double
    rw [Mode.pending_double] at size
    exact .of_idle (by omega)
  · obtain rfl := Option.some.inj ok
    have size := r.size_mode (.escaped false)
    rw [Mode.pending_escaped, Bool.toNat_false] at size
    exact .of_idle (by omega)
  · obtain rfl := Option.some.inj ok
    have size := r.size_mode (.dollar false)
    rw [Mode.pending_dollar] at size
    exact ⟨by omega, fun neat _ => ⟨neat.words, neat.word, .inr (.inl rfl)⟩⟩
  · obtain rfl := Option.some.inj ok
    have size := r.size_mode .comment
    rw [Mode.pending_comment] at size
    exact .of_idle (by omega)
  · obtain rfl := Option.some.inj ok
    have size := r.size_char c .bare
    rw [Mode.pending_bare] at size
    refine ⟨by omega, fun neat _ => ⟨neat.words, plain_add neat.word ?_ ?_, .inl rfl⟩⟩
    · rintro _ ⟨⟩
      simp only [active, List.mem_append, List.mem_cons, List.not_mem_nil, or_false]
      tauto
    · rintro none_ _ ⟨⟩
      exact ⟨fun same => comment ⟨none_, same⟩, fun same => tilde ⟨none_, same⟩⟩

theorem size_quoted (double : r.mode = .double) (ok : r.quoted c = some r') :
    r'.size ≤ r.size + 1 := by
  have char := r.size_char c .double
  have mode := r.size_mode
  rw [double] at char mode
  unfold Reading.quoted at ok
  split_ifs at ok
  · obtain rfl := Option.some.inj ok
    have mode := mode .bare
    simp only [Mode.pending_double, Mode.pending_bare] at mode
    omega
  · obtain rfl := Option.some.inj ok
    have mode := mode (.escaped true)
    simp only [Mode.pending_double, Mode.pending_escaped, Bool.toNat_true] at mode
    omega
  · obtain rfl := Option.some.inj ok
    have mode := mode (.dollar true)
    simp only [Mode.pending_double, Mode.pending_dollar] at mode
    omega
  · obtain rfl := Option.some.inj ok
    omega

theorem size_escapedQuoted (escaped : r.mode = .escaped true) (c : Char) :
    (r.escapedQuoted c).size ≤ r.size + 1 := by
  have char := r.size_char c .double
  have slash := r.size_char '\\' .double
  have both : _ + Mode.double.pending = _ := (r.add (.char '\\') .double).size_char c .double
  have mode := r.size_mode .double
  simp only [escaped, Mode.pending_double, Mode.pending_escaped, Bool.toNat_true] at char slash both mode
  unfold Reading.escapedQuoted
  split_ifs <;> omega

theorem advances_command {quoted : Bool} {depth depth' : Depth} {text : List Char}
    (command : r.mode = .command quoted depth text)
    (same : r' = if c = ')' ∧ depth'.nests = [] then
        r.add (.command text) (if quoted then .double else .bare)
      else { r with mode := .command quoted depth' (text ++ [c]) }) : Advances r r' := by
  have tidy (neat : Neat r) : quoted = false := by simpa [command] using neat.mode
  by_cases closing : c = ')' ∧ depth'.nests = []
  · rw [if_pos closing] at same
    subst same
    have size := r.size_add (.command text) (if quoted then .double else .bare)
    have next : (if quoted then Mode.double else .bare).pending = 0 := by cases quoted <;> rfl
    rw [command, Mode.pending_command, next] at size
    simp only [Piece.print, List.length_cons, List.length_append, List.length_nil] at size
    refine ⟨by omega, fun neat _ => ⟨neat.words, plain_add neat.word (by simp) (by simp), .inl ?_⟩⟩
    rw [tidy neat]
    rfl
  · rw [if_neg closing] at same
    subst same
    have size := r.size_mode (.command quoted depth' (text ++ [c]))
    rw [command, Mode.pending_command, Mode.pending_command, List.length_append,
      List.length_singleton] at size
    refine ⟨by omega, fun neat _ => ⟨neat.words, neat.word, .inr (.inr ⟨depth', text ++ [c], ?_⟩)⟩⟩
    rw [tidy neat]

theorem advances_step (ok : r.step c = some r') : Advances r r' := by
  have char := r.size_char c
  have mode := r.size_mode
  unfold Reading.step at ok
  split at ok
  · next bare => exact advances_unquoted bare ok
  · next single =>
    obtain rfl := Option.some.inj ok
    have char := char .single
    have mode := mode .bare
    simp only [single, Mode.pending_single, Mode.pending_bare] at char mode
    exact .of_untidy (by split_ifs <;> omega) (by simp [single])
  · next double => exact .of_untidy (size_quoted double ok) (by simp [double])
  · next escaped =>
    obtain rfl := Option.some.inj ok
    have char := char .bare
    have mode := mode .bare
    simp only [escaped, Mode.pending_escaped, Bool.toNat_false, Mode.pending_bare] at char mode
    exact .of_untidy (by split_ifs <;> omega) (by simp [escaped])
  · next escaped =>
    obtain rfl := Option.some.inj ok
    exact .of_untidy (size_escapedQuoted escaped c) (by simp [escaped])
  · next quoted dollar =>
    split_ifs at ok
    obtain rfl := Option.some.inj ok
    have mode := mode (.command quoted ⟨[.paren], .none⟩ [])
    rw [dollar, Mode.pending_dollar, Mode.pending_command, List.length_nil] at mode
    refine ⟨by omega, fun neat _ => ⟨neat.words, neat.word, .inr (.inr ⟨⟨[.paren], .none⟩, [], ?_⟩)⟩⟩
    have tidy : quoted = false := by simpa [dollar] using neat.mode
    rw [tidy]
  · next comment =>
    split_ifs at ok
    obtain rfl := Option.some.inj ok
    exact .of_idle (Nat.le_refl _)
  · next quoted depth text command =>
    obtain ⟨depth', -, same⟩ := Option.map_eq_some_iff.mp ok
    exact advances_command command same.symm

/-- Reading is never longer than its text, and neat where it is as long. -/
theorem run_size {cs : List Char} (ok : r.run cs = some r') :
    r'.size ≤ r.size + cs.length ∧ (Neat r → r'.size = r.size + cs.length → Neat r') := by
  induction cs generalizing r with
  | nil =>
    obtain rfl := Option.some.inj ok
    exact ⟨Nat.le_refl _, fun neat _ => neat⟩
  | cons c cs ih =>
    obtain ⟨next, stepped, rest⟩ := Option.bind_eq_some_iff.mp ok
    obtain ⟨size, neat⟩ := advances_step stepped
    obtain ⟨sizes, neats⟩ := ih rest
    rw [List.length_cons]
    exact ⟨by omega, fun tidy grown => neats (neat tidy (by omega)) (by omega)⟩

theorem printLine_singleton (w : Word) : printLine [w] = printWord w := by
  simp [printLine, List.intercalate]

theorem printLine_cons (w : Word) {ws : List Word} (some_ : ws ≠ []) :
    printLine (w :: ws) = printWord w ++ ' ' :: printLine ws := by
  obtain ⟨w', rest, rfl⟩ := List.exists_cons_of_ne_nil some_
  simp [printLine, List.intercalate]

theorem printLine_concat {ws : List Word} (some_ : ws ≠ []) (w : Word) :
    printLine (ws ++ [w]) = printLine ws ++ ' ' :: printWord w := by
  induction ws with
  | nil => exact absurd rfl some_
  | cons v ws ih =>
    rw [List.cons_append, printLine_cons v (by simp)]
    by_cases more : ws = []
    · rw [more, List.nil_append, printLine_singleton, printLine_singleton]
    · rw [ih more, printLine_cons v more, List.append_assoc, List.cons_append]

theorem printWords_eq {ws : List Word} (some_ : ws ≠ []) : printWords ws = printLine ws ++ [' '] := by
  induction ws with
  | nil => exact absurd rfl some_
  | cons w ws ih =>
    rw [← List.singleton_append, printWords_append, printWords_singleton, List.singleton_append]
    by_cases more : ws = []
    · rw [more, printLine_singleton]
      exact List.append_nil _
    · rw [ih more, printLine_cons w more]
      simp only [List.append_assoc, List.cons_append, List.nil_append]

theorem neat_start : Neat Reading.start := ⟨by simp [Reading.start], by simp [Reading.start], .inl rfl⟩

namespace Reading

theorem words_of_ended {ws : List Word} (ended : r.ended? = some ws) :
    ws = r.words ++ r.word.toList ∧ r.mode.pending = 0 := by
  unfold ended? at ended
  split at ended
  · next bare => exact ⟨(Option.some.inj ended).symm, by rw [bare, Mode.pending_bare]⟩
  · next comment => exact ⟨(Option.some.inj ended).symm, by rw [comment, Mode.pending_comment]⟩
  · contradiction

theorem size_of_ended {ws : List Word} (ended : r.ended? = some ws) :
    (printWords ws).length = r.size + r.word.toList.length := by
  obtain ⟨rfl, pending⟩ := words_of_ended ended
  have closed := r.size_close
  have nothing : r.close.size = (printWords r.close.words).length := rfl
  rw [pending, nothing] at closed
  exact closed

end Reading

/-- Words that are read from their own line are plain: all of the line went into them. -/
theorem plain_of_read {ws : List Word}
    (read : (Reading.start.run (printLine ws)).bind Reading.ended? = some ws) :
    ∀ w ∈ ws, Plain w := by
  intro w member
  obtain ⟨r, ran, ended⟩ := Option.bind_eq_some_iff.mp read
  obtain ⟨size, tight⟩ := run_size ran
  have nothing : Reading.start.size = 0 := rfl
  have length := congrArg List.length (printWords_eq (List.ne_nil_of_mem member))
  have last : r.word.toList.length ≤ 1 := by cases r.word <;> simp
  rw [r.size_of_ended ended, List.length_append, List.length_singleton] at length
  have neat := tight neat_start (by omega)
  obtain ⟨rfl, -⟩ := r.words_of_ended ended
  rcases List.mem_append.mp member with early | last
  · exact neat.words w early
  · exact neat.word w (Option.mem_toList.mp last)

end Sizes
end Stevedore.Shell
