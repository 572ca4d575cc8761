/-! A place in a YAML text and what is left from there on. -/
namespace Stevedore.Yaml

structure Cursor where
  rest : List Char
  index : Nat
  line : Nat
  column : Nat
  deriving Inhabited

def isLineBreak (c : Char) : Bool :=
  let n := c.toNat
  n = 10 || n = 13 || n = 0x85 || n = 0x2028 || n = 0x2029

def isBlankChar (c : Char) : Bool := c = ' ' || c = '\t'

namespace Cursor

def ofText (cs : List Char) : Cursor := ⟨cs, 0, 0, 0⟩

def head? (c : Cursor) : Option Char := c.rest.head?

def atEnd (c : Cursor) : Bool := c.rest.isEmpty

def isAt (c : Cursor) (ch : Char) : Bool := c.rest.head? == some ch

def peek? (c : Cursor) (n : Nat) : Option Char := (c.rest.drop n).head?

def holds (p : Char → Bool) (o : Option Char) : Bool := (o.map p).getD false

def atBlank (c : Cursor) : Bool := holds isBlankChar c.head?

def atBreak (c : Cursor) : Bool := holds isLineBreak c.head?

def atBreakOrEnd (c : Cursor) : Bool := c.atEnd || c.atBreak

/-- A blank, a break or the end, some places further on. -/
def endsWordAt (c : Cursor) (n : Nat) : Bool :=
  match c.peek? n with
  | none => true
  | some ch => isBlankChar ch || isLineBreak ch

def next (c : Cursor) : Cursor :=
  { c with rest := c.rest.drop 1, index := c.index + 1, column := c.column + 1 }

def advance : Nat → Cursor → Cursor
  | 0, c => c
  | n + 1, c => advance n c.next

/-- Past a line break, with the text that it stands for; past nothing where there is none. -/
def nextLine (c : Cursor) : List Char × Cursor :=
  match c.rest with
  | '\r' :: '\n' :: rest => (['\n'], ⟨rest, c.index + 2, c.line + 1, 0⟩)
  | ch :: rest =>
    if isLineBreak ch then
      (if ch.toNat < 0x2000 then ['\n'] else [ch], ⟨rest, c.index + 1, c.line + 1, 0⟩)
    else ([], c)
  | [] => ([], c)

/-- Past the longest run of characters that satisfy `p`, none of them a break. -/
def skipWhile (c : Cursor) (p : Char → Bool) : Cursor :=
  let run := c.rest.takeWhile p
  { c with rest := c.rest.dropWhile p, index := c.index + run.length,
           column := c.column + run.length }

def takeWhile (c : Cursor) (p : Char → Bool) : List Char × Cursor :=
  (c.rest.takeWhile p, c.skipWhile p)

def skipBlanks (c : Cursor) : Cursor := c.skipWhile isBlankChar

/-- Past blanks and a comment; none where something else stands before the end of the line. -/
def skipToLineEnd (c : Cursor) : Option Cursor :=
  let c := c.skipBlanks
  let c := if c.isAt '#' then c.skipWhile fun ch => !isLineBreak ch else c
  if c.atBreakOrEnd then some c.nextLine.2 else none

/-- Whether a line that starts here separates documents. -/
def atDocumentMark (c : Cursor) : Bool :=
  c.column = 0 && (['-', '-', '-'].isPrefixOf c.rest || ['.', '.', '.'].isPrefixOf c.rest) &&
    c.endsWordAt 3

end Cursor

end Stevedore.Yaml
