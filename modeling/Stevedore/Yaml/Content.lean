import Stevedore.Decimal.Reading
import Stevedore.Text.Basic
import Stevedore.Yaml.Cursor
import Stevedore.Yaml.Token

/-! The scalars of a YAML text: plain, in quotes, and in blocks of lines. -/
namespace Stevedore.Yaml

/-- The text that a run of breaks stands for: a lone break becomes a space, and of several the
first is dropped. A break of another kind than the usual is kept. -/
def folded (first others : List Char) : List Char :=
  if first = ['\n'] then (if others.isEmpty then [' '] else others) else first ++ others

/-- White space between two parts of a scalar. -/
structure Gap where
  blanks : List Char
  /-- The first break, none if there was none. -/
  first : Option (List Char)
  others : List Char

def Gap.none : Gap := ⟨[], .none, []⟩

def Gap.text (g : Gap) : List Char :=
  match g.first with
  | .none => g.blanks
  | .some first => folded first g.others

/-- Passes over blanks and breaks. Blanks after a break do not count, and a tab among them is
refused before the column `indent`. -/
def scanGap (indent : Option Int) : Nat → Gap → Cursor → Option (Gap × Cursor)
  | 0, _, _ => Option.none
  | fuel + 1, g, c =>
    if c.atBlank then
      match g.first with
      | .none => scanGap indent fuel { g with blanks := g.blanks ++ c.rest.take 1 } c.next
      | .some _ =>
        let abused := (indent.map fun i => decide ((c.column : Int) < i)).getD false
        if abused && c.isAt '\t' then Option.none else scanGap indent fuel g c.next
    else if c.atBreak then
      let (text, after) := c.nextLine
      match g.first with
      | .none => scanGap indent fuel { g with first := .some text } after
      | .some _ => scanGap indent fuel { g with others := g.others ++ text } after
    else some (g, c)

/-- The part of a plain scalar up to white space or its end, in reverse before `acc`. -/
def scanPlainPart (inFlow : Bool) : Nat → List Char → Cursor → Option (List Char × Cursor × Bool)
  | 0, _, _ => none
  | fuel + 1, acc, c =>
    match c.rest with
    | [] => some (acc, c, true)
    | ch :: _ =>
      if isBlankChar ch || isLineBreak ch then some (acc, c, false)
      else if inFlow && ch = ':' &&
          Cursor.holds (fun d => ",?[]\x7b\x7d".toList.contains d) (c.peek? 1) then none
      else if (ch = ':' && c.endsWordAt 1) ||
          (inFlow && ",[]\x7b\x7d".toList.contains ch) then some (acc, c, true)
      else scanPlainPart inFlow fuel (ch :: acc) c.next

/-- A plain scalar: its text in reverse, the place after it, and whether a break came last. -/
def scanPlain (inFlow : Bool) (indent : Int) : Nat → List Char → Gap → Cursor →
    Option (List Char × Cursor × Bool)
  | 0, _, _, _ => none
  | fuel + 1, acc, gap, c =>
    if c.atDocumentMark || c.isAt '#' then some (acc, c, gap.first.isSome)
    else
      match scanPlainPart inFlow (fuel + 1) [] c with
      | none => none
      | some (part, after, ended) =>
        let acc := if part.isEmpty then acc else part ++ gap.text.reverse ++ acc
        let gap := if part.isEmpty then gap else Gap.none
        if ended then some (acc, after, gap.first.isSome)
        else
          match scanGap (some indent) (fuel + 1) gap after with
          | none => none
          | some (gap, after) =>
            if !inFlow && (after.column : Int) < indent then some (acc, after, gap.first.isSome)
            else scanPlain inFlow indent fuel acc gap after

def escape? (c : Char) : Option Char :=
  match c with
  | '0' => some (Char.ofNat 0)
  | 'a' => some (Char.ofNat 7)
  | 'b' => some (Char.ofNat 8)
  | 't' => some '\t'
  | '\t' => some '\t'
  | 'n' => some '\n'
  | 'v' => some (Char.ofNat 11)
  | 'f' => some (Char.ofNat 12)
  | 'r' => some '\r'
  | 'e' => some (Char.ofNat 27)
  | ' ' => some ' '
  | '"' => some '"'
  | '/' => some '/'
  | '\\' => some '\\'
  | 'N' => some (Char.ofNat 0x85)
  | '_' => some (Char.ofNat 0xA0)
  | 'L' => some (Char.ofNat 0x2028)
  | 'P' => some (Char.ofNat 0x2029)
  | _ => none

/-- How many digits follow a letter that gives a character by number. -/
def escapeWidth? (c : Char) : Option Nat :=
  if c = 'x' then some 2 else if c = 'u' then some 4 else if c = 'U' then some 8 else none

def charOfNumber? (n : Nat) : Option Char :=
  if (0xD800 ≤ n ∧ n ≤ 0xDFFF) ∨ 0x10FFFF < n then none else some (Char.ofNat n)

/-- An escape from its backslash on. -/
def scanEscape (c : Cursor) : Option (Char × Cursor) :=
  match c.rest with
  | _ :: letter :: rest =>
    match escapeWidth? letter with
    | some width =>
      if rest.length < width then none
      else
        match (Text.hexNumber? (rest.take width)).bind charOfNumber? with
        | some ch => some (ch, Cursor.advance (width + 2) c)
        | none => none
    | none => (escape? letter).map fun ch => (ch, Cursor.advance 2 c)
  | _ => none

/-- How a part of a quoted scalar ends: at white space, or at an escaped break. -/
inductive PartEnd where
  | plain
  | escapedBreak

/-- The part of a quoted scalar up to white space or its closing quote, in reverse. -/
def scanQuotedPart (quote : Char) : Nat → List Char → Cursor →
    Option (List Char × Cursor × PartEnd)
  | 0, _, _ => none
  | fuel + 1, acc, c =>
    match c.rest with
    | [] => some (acc, c, .plain)
    | ch :: _ =>
      if isBlankChar ch || isLineBreak ch then some (acc, c, .plain)
      else if quote = '\'' && ch = '\'' && c.peek? 1 = some '\'' then
        scanQuotedPart quote fuel ('\'' :: acc) (Cursor.advance 2 c)
      else if ch = quote then some (acc, c, .plain)
      else if quote = '"' && ch = '\\' then
        if Cursor.holds isLineBreak (c.peek? 1) then some (acc, c.next.nextLine.2, .escapedBreak)
        else
          match scanEscape c with
          | none => none
          | some (e, after) => scanQuotedPart quote fuel (e :: acc) after
      else scanQuotedPart quote fuel (ch :: acc) c.next

/-- A quoted scalar after its opening quote: its text in reverse and the place after it. -/
def scanQuoted (quote : Char) : Nat → List Char → Cursor → Option (List Char × Cursor)
  | 0, _, _ => none
  | fuel + 1, acc, c =>
    if c.atDocumentMark || c.atEnd then none
    else
      match scanQuotedPart quote (fuel + 1) acc c with
      | none => none
      | some (acc, after, partEnd) =>
        if after.isAt quote then some (acc, after.next)
        else
          let gap := match partEnd with
            | .plain => Gap.none
            | .escapedBreak => { Gap.none with first := some [] }
          match scanGap none (fuel + 1) gap after with
          | none => none
          | some (gap, after) => scanQuoted quote fuel (gap.text.reverse ++ acc) after

/-- Passes over the indentation and the empty lines before a line of a block; the deepest column
is noted while the indentation is not known. -/
def scanBlockBreaks : Nat → Nat → Nat → List Char → Cursor →
    Option (Nat × List Char × Cursor)
  | 0, _, _, _, _ => none
  | fuel + 1, indent, deepest, acc, c =>
    let inside (c : Cursor) : Bool := indent = 0 || c.column < indent
    let spaces := c.rest.takeWhile (· = ' ')
    let count := if indent = 0 then spaces.length else min spaces.length (indent - c.column)
    let c := Cursor.advance count c
    let deepest := max deepest c.column
    if inside c && c.isAt '\t' then none
    else if c.atBreak then
      let (text, after) := c.nextLine
      scanBlockBreaks fuel indent deepest (acc ++ text) after
    else some (deepest, acc, c)

/-- The lines of a block: the text so far in reverse, the break after the last line, and the empty
lines after it. -/
def scanBlockLines (literal : Bool) (indent : Nat) : Nat → List Char → List Char → List Char →
    Bool → Cursor → Option (List Char × List Char × List Char × Cursor)
  | 0, _, _, _, _, _ => none
  | fuel + 1, acc, lead, trail, leadBlank, c =>
    if c.column ≠ indent ∨ c.atEnd then some (acc, lead, trail, c)
    else
      let blank := c.atBlank
      let joint :=
        if !literal && lead = ['\n'] && !leadBlank && !blank then
          (if trail.isEmpty then [' '] else trail)
        else lead ++ trail
      let (text, after) := c.takeWhile fun ch => !isLineBreak ch
      let (lead, after) := after.nextLine
      match scanBlockBreaks (fuel + 1) indent 0 [] after with
      | none => none
      | some (_, trail, after) =>
        scanBlockLines literal indent fuel (text.reverse ++ joint.reverse ++ acc) lead trail blank
          after

inductive Chomping where
  | strip
  | clip
  | keep
  deriving DecidableEq

def chomping? (c : Cursor) : Option (Chomping × Cursor) :=
  if c.isAt '+' then some (.keep, c.next) else if c.isAt '-' then some (.strip, c.next) else none

/-- A digit from one to nine; none of it where there is no digit, and refused where it is zero. -/
def scanIncrement (c : Cursor) : Option (Nat × Cursor) :=
  match c.head? with
  | some ch =>
    if ch.isDigit then (if ch = '0' then none else some (Decimal.digitValue ch, c.next))
    else some (0, c)
  | none => some (0, c)

/-- The header of a block, after its mark: chomping and indentation in either order. -/
def scanBlockHeader (c : Cursor) : Option (Chomping × Nat × Cursor) :=
  match chomping? c with
  | some (chomping, after) => (scanIncrement after).map fun (n, after) => (chomping, n, after)
  | none =>
    match scanIncrement c with
    | none => none
    | some (0, after) => some (.clip, 0, after)
    | some (n, after) =>
      match chomping? after with
      | some (chomping, after) => some (chomping, n, after)
      | none => some (.clip, n, after)

/-- A block of lines after its mark, in a collection at column `parent`. -/
def scanBlock (literal : Bool) (parent : Int) (fuel : Nat) (c : Cursor) :
    Option (List Char × Cursor) :=
  match scanBlockHeader c with
  | none => none
  | some (chomping, increment, after) =>
    match after.skipToLineEnd with
    | none => none
    | some after =>
      let given := if increment = 0 then 0 else (max parent 0).toNat + increment
      match scanBlockBreaks fuel given 0 [] after with
      | none => none
      | some (deepest, trail, after) =>
        let indent := if given = 0 then max deepest (max (parent + 1) 1).toNat else given
        match scanBlockLines literal indent fuel [] [] trail false after with
        | none => none
        | some (acc, lead, trail, after) =>
          let tail := match chomping with
            | .strip => []
            | .clip => lead
            | .keep => lead ++ trail
          some (acc.reverse ++ tail, after)

end Stevedore.Yaml
