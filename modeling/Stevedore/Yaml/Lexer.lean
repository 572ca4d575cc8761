import Stevedore.Yaml.Content
import Stevedore.Yaml.Word

/-!
From a YAML text to its tokens. Indentation opens and closes block collections, and a key that has
no mark of its own is found when the colon after it is reached.
-/
namespace Stevedore.Yaml

/-- A place where a key without a mark may start. -/
structure KeyStart where
  /-- Nothing but a key fits there. -/
  required : Bool
  /-- How many tokens come before it. -/
  number : Nat
  index : Nat
  line : Nat
  column : Nat

structure Lexer where
  cursor : Cursor
  tokens : List Token
  count : Nat
  indent : Int
  outer : List Int
  /-- One place for a key for each open flow collection, and one for the block around them. -/
  keys : List (Option KeyStart)
  keyAllowed : Bool

namespace Lexer

def start (cs : List Char) : Lexer :=
  { cursor := .ofText cs, tokens := [], count := 0, indent := -1, outer := [], keys := [none],
    keyAllowed := true }

/-- Inside a flow collection. -/
def inFlow (l : Lexer) : Bool := 1 < l.keys.length

def push (l : Lexer) (t : Token) : Lexer :=
  { l with tokens := t :: l.tokens, count := l.count + 1 }

def insertAt (l : Lexer) (number : Nat) (t : Token) : Lexer :=
  let later := l.count - number
  { l with tokens := l.tokens.take later ++ t :: l.tokens.drop later, count := l.count + 1 }

def skip (l : Lexer) (n : Nat) : Lexer := { l with cursor := Cursor.advance n l.cursor }

def key? (l : Lexer) : Option KeyStart := (l.keys.head?).join

def setKey (l : Lexer) (k : Option KeyStart) : Lexer := { l with keys := k :: l.keys.drop 1 }

/-- Gives up the place for a key; none where a key was required. -/
def dropKey (l : Lexer) : Option Lexer :=
  match l.key? with
  | some k => if k.required then none else some (l.setKey none)
  | none => some l

/-- Notes the current place as one where a key may start. -/
def noteKey (l : Lexer) : Option Lexer :=
  if l.keyAllowed then
    let c := l.cursor
    let required := !l.inFlow && l.indent = (c.column : Int)
    l.dropKey.map fun l => l.setKey (some
      { required, number := l.count, index := c.index, line := c.line, column := c.column })
  else some l

/-- A key ends on its line and within 1024 characters. -/
def isStale (c : Cursor) (k : KeyStart) : Bool := k.line < c.line || k.index + 1024 < c.index

def dropStaleKeys (l : Lexer) : Option Lexer :=
  let stale (k : Option KeyStart) : Bool := (k.map (isStale l.cursor)).getD false
  if l.keys.any fun k => stale k && (k.map (·.required)).getD false then none
  else some { l with keys := l.keys.map fun k => if stale k then none else k }

/-- Opens a block collection at a column beyond the current one. -/
def openBlock (l : Lexer) (column : Int) (number : Option Nat) (t : Token) : Lexer :=
  if l.inFlow || column ≤ l.indent then l
  else
    let l := { l with outer := l.indent :: l.outer, indent := column }
    match number with
    | some n => l.insertAt n t
    | none => l.push t

/-- Closes the block collections beyond a column. -/
def closeBlocks (column : Int) : Nat → Lexer → Lexer
  | 0, l => l
  | fuel + 1, l =>
    if l.inFlow || l.indent ≤ column then l
    else
      closeBlocks column fuel
        ({ l with indent := l.outer.head?.getD (-1), outer := l.outer.drop 1 }.push .blockEnd)

def close (l : Lexer) (column : Int) : Lexer := closeBlocks column (l.outer.length + 1) l

/-- Passes over white space and comments; a new line in a block allows a key. -/
def skipSpace : Nat → Lexer → Lexer
  | 0, l => l
  | fuel + 1, l =>
    let c := l.cursor
    let c := if c.column = 0 && c.isAt (Char.ofNat 0xFEFF) then c.next else c
    let tabs := l.inFlow || !l.keyAllowed
    let c := c.skipWhile fun ch => ch = ' ' || (tabs && ch = '\t')
    let c := if c.isAt '#' then c.skipWhile fun ch => !isLineBreak ch else c
    if c.atBreak then
      skipSpace fuel { l with cursor := c.nextLine.2, keyAllowed := l.keyAllowed || !l.inFlow }
    else { l with cursor := c }

/-- A token of fixed text that leaves the way free for a key, or not. -/
def mark (l : Lexer) (width : Nat) (keyAllowed : Bool) (t : Token) : Lexer :=
  { l.push t with keyAllowed }.skip width

def directive (l : Lexer) : Option Lexer := do
  let l ← (l.close (-1)).dropKey
  let (t, c) ← scanDirective l.cursor
  return { l.push t with cursor := c, keyAllowed := false }

def documentMark (l : Lexer) (t : Token) : Option Lexer :=
  (l.close (-1)).dropKey.map fun l => l.mark 3 false t

def openFlow (l : Lexer) (t : Token) : Option Lexer :=
  l.noteKey.map fun l => { l with keys := none :: l.keys }.mark 1 true t

def closeFlow (l : Lexer) (t : Token) : Option Lexer :=
  l.dropKey.map fun l =>
    let keys := if l.inFlow then l.keys.drop 1 else l.keys
    { l with keys }.mark 1 false t

def flowEntry (l : Lexer) : Option Lexer := l.dropKey.map fun l => l.mark 1 true .flowEntry

/-- An entry of a block sequence, which opens one where it is indented. -/
def blockEntry (l : Lexer) : Option Lexer :=
  if !l.inFlow && !l.keyAllowed then none
  else (l.openBlock l.cursor.column none .blockSequence).dropKey.map fun l =>
    l.mark 1 true .blockEntry

def keyMark (l : Lexer) : Option Lexer :=
  if !l.inFlow && !l.keyAllowed then none
  else (l.openBlock l.cursor.column none .blockMapping).dropKey.map fun l =>
    l.mark 1 (!l.inFlow) .key

/-- A colon: what stands where a key may start becomes one. -/
def valueMark (l : Lexer) : Option Lexer :=
  match l.key? with
  | some k =>
    let l := (l.insertAt k.number .key).openBlock k.column (some k.number) .blockMapping
    some ((l.setKey none).mark 1 false .value)
  | none =>
    if !l.inFlow && !l.keyAllowed then none
    else some ((l.openBlock l.cursor.column none .blockMapping).mark 1 (!l.inFlow) .value)

def anchorMark (l : Lexer) (token : List Char → Token) : Option Lexer := do
  let l ← l.noteKey
  let (name, c) ← scanAnchorName l.cursor.next
  return { l.push (token name) with cursor := c, keyAllowed := false }

def tagMark (l : Lexer) : Option Lexer := do
  let l ← l.noteKey
  let (t, c) ← scanTag l.inFlow l.cursor
  return { l.push t with cursor := c, keyAllowed := false }

def blockScalar (l : Lexer) (fuel : Nat) (literal : Bool) : Option Lexer := do
  let l ← l.dropKey
  let (text, c) ← scanBlock literal l.indent fuel l.cursor.next
  let style := if literal then ScalarStyle.literal else .folded
  return { l.push (.scalar style text) with cursor := c, keyAllowed := true }

def quotedScalar (l : Lexer) (fuel : Nat) (quote : Char) : Option Lexer := do
  let l ← l.noteKey
  let (text, c) ← scanQuoted quote fuel [] l.cursor.next
  return { l.push (.scalar .quoted text.reverse) with cursor := c, keyAllowed := false }

def plainScalar (l : Lexer) (fuel : Nat) : Option Lexer := do
  let l ← l.noteKey
  let (text, c, broken) ← scanPlain l.inFlow (l.indent + 1) fuel [] Gap.none l.cursor
  return { l.push (.scalar .plain text.reverse) with cursor := c, keyAllowed := broken }

/-- Whether a plain scalar may start with a character before what follows. -/
def startsPlain (l : Lexer) (ch : Char) : Bool :=
  let c := l.cursor
  !"-?:,[]\x7b\x7d#&*!|>'\"%@`".toList.contains ch ||
    (ch = '-' && !Cursor.holds isBlankChar (c.peek? 1)) ||
    (!l.inFlow && (ch = '?' || ch = ':') && !c.endsWordAt 1)

/-- The next token from a character that is not white space. -/
def token (l : Lexer) (fuel : Nat) (ch : Char) : Option Lexer :=
  let c := l.cursor
  let word := c.endsWordAt 1
  if c.column = 0 && ch = '%' then l.directive
  else if c.atDocumentMark then l.documentMark (if ch = '-' then .documentStart else .documentEnd)
  else if ch = '[' then l.openFlow .openSequence
  else if ch = '\x7b' then l.openFlow .openMapping
  else if ch = ']' then l.closeFlow .closeSequence
  else if ch = '\x7d' then l.closeFlow .closeMapping
  else if ch = ',' then l.flowEntry
  else if ch = '-' && word then l.blockEntry
  else if ch = '?' && (l.inFlow || word) then l.keyMark
  else if ch = ':' && (l.inFlow || word) then l.valueMark
  else if ch = '*' then l.anchorMark .alias
  else if ch = '&' then l.anchorMark .anchor
  else if ch = '!' then l.tagMark
  else if ch = '|' && !l.inFlow then l.blockScalar fuel true
  else if ch = '>' && !l.inFlow then l.blockScalar fuel false
  else if ch = '\'' then l.quotedScalar fuel '\''
  else if ch = '"' then l.quotedScalar fuel '"'
  else if l.startsPlain ch then l.plainScalar fuel
  else none

/-- Runs to the end of the text; `all` bounds the length of a single token. -/
def run (all : Nat) : Nat → Lexer → Option (List Token)
  | 0, _ => none
  | fuel + 1, l =>
    match (skipSpace all l).dropStaleKeys with
    | none => none
    | some l =>
      let l := l.close l.cursor.column
      match l.cursor.head? with
      | none => ((l.close (-1)).dropKey).map fun l => l.tokens.reverse
      | some ch =>
        match l.token all ch with
        | none => none
        | some l => run all fuel l

end Lexer

def isAdmitted (c : Char) : Bool :=
  let n := c.toNat
  n = 9 || n = 10 || n = 13 || (0x20 ≤ n && n ≤ 0x7E) || n = 0x85 ||
    (0xA0 ≤ n && n != 0xFFFE && n != 0xFFFF)

/-- The tokens of a text; a byte order mark at its start does not count. -/
def tokens? (cs : List Char) : Option (List Token) :=
  let cs := if cs.head? = some (Char.ofNat 0xFEFF) then cs.drop 1 else cs
  if cs.all isAdmitted then
    let fuel := cs.length + 2
    Lexer.run fuel fuel (.start cs)
  else none

end Stevedore.Yaml
