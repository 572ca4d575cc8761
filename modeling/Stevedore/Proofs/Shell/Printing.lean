import Stevedore.Proofs.Shell.Words

/-!
Plain words, with blanks between them, are read back from the line they make. A substitution keeps the
text of its command, and the text of plain words ends no substitution it is in.
-/
namespace Stevedore.Shell
variable (ws : List Word) (held : Option Word)

namespace Reading

theorem run_append (r : Reading) (cs ds : List Char) :
    r.run (cs ++ ds) = (r.run cs).bind fun r' => r'.run ds := List.foldlM_append

theorem run_cons (r : Reading) (c : Char) (cs : List Char) :
    r.run (c :: cs) = (r.step c).bind fun r' => r'.run cs := rfl

end Reading

theorem inactive_iff (c : Char) : c ∉ active ↔
    (c ≠ ' ' ∧ c ≠ '\t' ∧ c ≠ '\x27' ∧ c ≠ '"' ∧ c ≠ '\\' ∧ c ≠ '$') ∧ c ∉ refused := by
  simp [active, and_assoc]

/-- Reading a substitution whose text so far has closed all it has opened. -/
def inCommand (ws : List Word) (held : Option Word) (text : List Char) : Reading :=
  ⟨ws, held, .command false ⟨[.paren], .none⟩ text⟩

/-- The text does not end the substitution it is in, nor leaves anything open there. -/
def Enclosed (text : List Char) : Prop :=
  ∀ ws held, (inCommand ws held []).run text = some (inCommand ws held text)

theorem run_piece {p : Piece} (inactive : ∀ c, p = .char c → c ∉ active)
    (opening : held = none → ∀ c, p = .char c → c ≠ '#' ∧ c ≠ '~')
    (enclosed : ∀ text, p = .command text → Enclosed text) :
    Reading.run ⟨ws, held, .bare⟩ p.print = some ⟨ws, some (held.getD [] ++ [p]), .bare⟩ := by
  cases p with
  | char c =>
    obtain ⟨⟨blank, tab, single, double, slash, dollar⟩, refused⟩ :=
      (inactive_iff c).mp (inactive c rfl)
    have comment : ¬(held = none ∧ c = '#') := fun ⟨none_, same⟩ => (opening none_ c rfl).1 same
    have tilde : ¬(held = none ∧ c = '~') := fun ⟨none_, same⟩ => (opening none_ c rfl).2 same
    simp [Piece.print, Reading.run, Reading.step, Reading.unquoted, Reading.add, *]
  | command text =>
    have opened : Reading.run ⟨ws, held, .bare⟩ ['$', '('] = some (inCommand ws held []) := rfl
    have closed : (inCommand ws held text).run [')'] =
        some ⟨ws, some (held.getD [] ++ [.command text]), .bare⟩ := rfl
    have printed : Piece.print (.command text) = ['$', '('] ++ (text ++ [')']) := rfl
    rw [printed, Reading.run_append, opened, Option.bind_some, Reading.run_append,
      enclosed text rfl ws held, Option.bind_some, closed]

/-- The word is read back, and what it substitutes. -/
structure Printable (w : Word) : Prop extends Plain w where
  enclosed : ∀ text, .command text ∈ w → Enclosed text

theorem Plain.printable {text : String} (plain : Plain (literal text)) :
    Printable (literal text) where
  toPlain := plain
  enclosed := by simp [literal]

theorem run_pieces {w : Word} (inactive : ∀ c, .char c ∈ w → c ∉ active)
    (enclosed : ∀ text, .command text ∈ w → Enclosed text) (v : Word) :
    Reading.run ⟨ws, some v, .bare⟩ (printWord w) = some ⟨ws, some (v ++ w), .bare⟩ := by
  induction w generalizing v with
  | nil => rw [List.append_nil]; rfl
  | cons p w ih =>
    have first := run_piece ws (some v) (p := p)
      (fun c same => inactive c (same ▸ List.mem_cons_self)) (by simp)
      (fun text same => enclosed text (same ▸ List.mem_cons_self))
    have rest := ih (fun c member => inactive c (List.mem_cons_of_mem p member))
      (fun text member => enclosed text (List.mem_cons_of_mem p member)) (v ++ [p])
    have printed : printWord (p :: w) = p.print ++ printWord w := rfl
    rw [printed, Reading.run_append, first, Option.bind_some, Option.getD_some, rest,
      List.append_assoc, List.singleton_append]

theorem run_word {w : Word} (printable : Printable w) :
    Reading.run ⟨ws, none, .bare⟩ (printWord w) = some ⟨ws, some w, .bare⟩ := by
  obtain ⟨⟨some_, inactive, opening⟩, enclosed⟩ := printable
  obtain ⟨p, w, rfl⟩ := List.exists_cons_of_ne_nil some_
  have first := run_piece ws none (p := p)
    (fun c same => inactive c (same ▸ List.mem_cons_self))
    (fun _ c same => opening c (same ▸ rfl))
    (fun text same => enclosed text (same ▸ List.mem_cons_self))
  have rest := run_pieces ws (fun c member => inactive c (List.mem_cons_of_mem p member))
    (fun text member => enclosed text (List.mem_cons_of_mem p member)) [p]
  have printed : printWord (p :: w) = p.print ++ printWord w := rfl
  rw [printed, Reading.run_append, first, Option.bind_some]
  exact rest

theorem run_line {es : List Word} {w : Word} (printables : ∀ e ∈ es, Printable e)
    (last : Printable w) : Reading.run ⟨ws, none, .bare⟩ (printLine (es ++ [w])) =
      some ⟨ws ++ es, some w, .bare⟩ := by
  induction es generalizing ws with
  | nil =>
    rw [List.nil_append, List.append_nil, printLine_singleton]
    exact run_word ws last
  | cons e es ih =>
    have blank : Reading.step ⟨ws, some e, .bare⟩ ' ' = some ⟨ws ++ [e], none, .bare⟩ := rfl
    have rest := ih (ws ++ [e]) fun e' member => printables e' (List.mem_cons_of_mem e member)
    rw [List.cons_append, printLine_cons e (by simp), Reading.run_append,
      run_word ws (printables e List.mem_cons_self), Option.bind_some, Reading.run_cons, blank,
      Option.bind_some, rest, List.append_assoc, List.singleton_append]

theorem run_printLine {ws : List Word} (some_ : ws ≠ []) (printables : ∀ w ∈ ws, Printable w) :
    ∃ words word, Reading.start.run (printLine ws) = some ⟨words, some word, .bare⟩ ∧
      words ++ [word] = ws := by
  obtain rfl | ⟨words, word, rfl⟩ := List.eq_nil_or_concat' ws
  · contradiction
  · refine ⟨words, word, run_line [] (fun w member => printables w ?_) (printables word ?_), rfl⟩
    · exact List.mem_append_left _ member
    · exact List.mem_append_right _ (List.mem_singleton_self word)

/-- Words that mean nothing else to a shell are the ones that are read from their own line. -/
theorem read_printLine_iff {ws : List Word} (some_ : ws ≠ [])
    (enclosed : ∀ w ∈ ws, ∀ text, .command text ∈ w → Enclosed text) :
    (Reading.start.run (printLine ws)).bind Reading.ended? = some ws ↔ ∀ w ∈ ws, Plain w := by
  constructor
  · exact plain_of_read
  · intro plain
    obtain ⟨words, word, read, same⟩ :=
      run_printLine some_ fun w member => ⟨plain w member, enclosed w member⟩
    rw [read, Option.bind_some, ← same]
    rfl

theorem run_quoted {cs : List Char} (unquoted : '\x27' ∉ cs) (v : Word) :
    Reading.run ⟨ws, some v, .bare⟩ ('\x27' :: (cs ++ ['\x27'])) =
      some ⟨ws, some (v ++ cs.map .char), .bare⟩ := by
  have inner (v : Word) : Reading.run ⟨ws, some v, .single⟩ cs =
      some ⟨ws, some (v ++ cs.map .char), .single⟩ := by
    induction cs generalizing v with
    | nil => rw [List.map_nil, List.append_nil]; rfl
    | cons c cs ih =>
      have other : c ≠ '\x27' := fun same => unquoted (same ▸ List.mem_cons_self)
      have stepped : Reading.step ⟨ws, some v, .single⟩ c =
          some ⟨ws, some (v ++ [.char c]), .single⟩ := by
        simp [Reading.step, Reading.add, other]
      rw [Reading.run_cons, stepped, Option.bind_some,
        ih (fun member => unquoted (List.mem_cons_of_mem c member)), List.map_cons,
        List.append_assoc, List.singleton_append]
  have opened : Reading.step ⟨ws, some v, .bare⟩ '\x27' = some ⟨ws, some v, .single⟩ := rfl
  have closed (v : Word) : Reading.run ⟨ws, some v, .single⟩ ['\x27'] =
      some ⟨ws, some v, .bare⟩ := rfl
  rw [Reading.run_cons, opened, Option.bind_some, Reading.run_append, inner, Option.bind_some, closed]

theorem step_command {text : List Char} {c : Char} (blank : c = ' ' ∨ c ∉ active)
    (comment : startsWord text → c ≠ '#') :
    (inCommand ws held text).step c = some (inCommand ws held (text ++ [c])) := by
  have still : ¬(c = '#' ∧ startsWord text = true) := fun ⟨same, starts⟩ => comment starts same
  have each : c ≠ '\\' ∧ c ≠ '\x27' ∧ c ≠ '"' ∧ c ≠ '(' ∧ c ≠ ')' ∧ c ≠ '\x60' := by
    rcases blank with rfl | inactive
    · decide
    · simp only [active, refused, List.mem_append, List.mem_cons, not_or] at inactive
      tauto
  obtain ⟨slash, single, double, opening, closing, tick⟩ := each
  simp [inCommand, Reading.step, Depth.step, Depth.inParen, *]

theorem startsWord_inactive (text : List Char) {c : Char} (inactive : c ∉ active) :
    startsWord (text ++ [c]) = false := by
  simp only [active, refused, List.mem_append, List.mem_cons, not_or] at inactive
  simp only [startsWord, List.getLast?_append, List.getLast?_singleton, Option.some_or, Option.all_some,
    List.contains_eq_mem, decide_eq_false_iff_not, List.mem_cons, not_or]
  tauto

theorem run_command_word {text cs : List Char} (inactive : ∀ c ∈ cs, c ∉ active)
    (comment : startsWord text → cs.head? ≠ some '#') :
    (inCommand ws held text).run cs = some (inCommand ws held (text ++ cs)) := by
  induction cs generalizing text with
  | nil => rw [List.append_nil]; rfl
  | cons c cs ih =>
    have first := inactive c List.mem_cons_self
    have stepped : (inCommand ws held text).step c = some (inCommand ws held (text ++ [c])) :=
      step_command ws held (.inr first) fun starts same => comment starts (congrArg some same)
    have within : ¬startsWord (text ++ [c]) := by simp [startsWord_inactive text first]
    have rest := ih (fun c' member => inactive c' (List.mem_cons_of_mem c member))
      fun starts => absurd starts within
    rw [Reading.run_cons, stepped, Option.bind_some, rest, List.append_assoc, List.singleton_append]

theorem printWord_literal (text : String) : printWord (literal text) = text.toList := by
  simp [printWord, literal, Piece.print, List.flatMap_map]

theorem run_command_line {text : List Char} {args : List String} (some_ : args ≠ [])
    (plain : ∀ arg ∈ args, Plain (literal arg)) (starts : startsWord text) :
    (inCommand ws held text).run (printLine (args.map literal)) =
      some (inCommand ws held (text ++ printLine (args.map literal))) := by
  induction args generalizing text with
  | nil => exact absurd rfl some_
  | cons arg args ih =>
    have word : (inCommand ws held text).run (printWord (literal arg)) =
        some (inCommand ws held (text ++ printWord (literal arg))) := by
      have plain := plain arg List.mem_cons_self
      rw [printWord_literal]
      refine run_command_word ws held (fun c member => plain.inactive c (List.mem_map_of_mem member)) ?_
      intro _ first
      refine (plain.opening '#' ?_).1 rfl
      rw [literal, List.head?_map, first]
      rfl
    by_cases more : args = []
    · rw [more, List.map_singleton, printLine_singleton]
      exact word
    · have blank : (inCommand ws held (text ++ printWord (literal arg))).step ' ' =
          some (inCommand ws held (text ++ printWord (literal arg) ++ [' '])) :=
        step_command ws held (.inl rfl) (by simp)
      have behind : startsWord (text ++ printWord (literal arg) ++ [' ']) := by simp [startsWord]
      have rest := ih more (fun a member => plain a (List.mem_cons_of_mem arg member)) behind
      rw [List.map_cons, printLine_cons _ (by simpa using more), Reading.run_append, word,
        Option.bind_some, Reading.run_cons, blank, Option.bind_some, rest]
      simp only [List.append_assoc, List.singleton_append]

theorem run_command_quoted {text cs : List Char} (unquoted : '\x27' ∉ cs) :
    (inCommand ws held text).run ('\x27' :: (cs ++ ['\x27'])) =
      some (inCommand ws held (text ++ '\x27' :: (cs ++ ['\x27']))) := by
  have inner (text : List Char) :
      Reading.run ⟨ws, held, .command false ⟨[.paren], .single⟩ text⟩ cs =
        some ⟨ws, held, .command false ⟨[.paren], .single⟩ (text ++ cs)⟩ := by
    induction cs generalizing text with
    | nil => rw [List.append_nil]; rfl
    | cons c cs ih =>
      have other : c ≠ '\x27' := fun same => unquoted (same ▸ List.mem_cons_self)
      have stepped : Reading.step ⟨ws, held, .command false ⟨[.paren], .single⟩ text⟩ c =
          some ⟨ws, held, .command false ⟨[.paren], .single⟩ (text ++ [c])⟩ := by
        simp [Reading.step, Depth.step, other]
      rw [Reading.run_cons, stepped, Option.bind_some,
        ih (fun member => unquoted (List.mem_cons_of_mem c member)), List.append_assoc,
        List.singleton_append]
  have opened : (inCommand ws held text).step '\x27' =
      some ⟨ws, held, .command false ⟨[.paren], .single⟩ (text ++ ['\x27'])⟩ := rfl
  have closed (text : List Char) :
      Reading.run ⟨ws, held, .command false ⟨[.paren], .single⟩ text⟩ ['\x27'] =
        some (inCommand ws held (text ++ ['\x27'])) := rfl
  rw [Reading.run_cons, opened, Option.bind_some, Reading.run_append, inner, Option.bind_some, closed]
  simp only [List.append_assoc, List.cons_append, List.nil_append]

/-- A substitution ends at a parenthesis only. -/
theorem run_command_open {r r' : Reading} {cs : List Char} {quoted : Bool} {depth : Depth}
    {text : List Char} (command : r.mode = .command quoted depth text) (unclosed : ')' ∉ cs)
    (ran : r.run cs = some r') : ∃ depth text, r'.mode = .command quoted depth text := by
  induction cs generalizing r depth text with
  | nil =>
    obtain rfl := Option.some.inj ran
    exact ⟨depth, text, command⟩
  | cons c cs ih =>
    obtain ⟨next, stepped, rest⟩ := Option.bind_eq_some_iff.mp ran
    have other : c ≠ ')' := fun same => unclosed (same ▸ List.mem_cons_self)
    rw [Reading.step, command] at stepped
    obtain ⟨depth', -, rfl⟩ := Option.map_eq_some_iff.mp stepped
    rw [if_neg fun closing => other closing.1] at rest
    exact ih rfl (fun member => unclosed (List.mem_cons_of_mem c member)) rest

end Stevedore.Shell
