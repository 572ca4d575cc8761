import Stevedore.Json.Printer
import Stevedore.Yaml.Scalar

/-!
Values as YAML in block style. A text is written plain where that reads back as the same text, on
lines of its own where it has several, and in quotes elsewhere.
-/
namespace Stevedore.Yaml
open Text

def isBreak (c : Char) : Bool :=
  let n := c.toNat
  n = 10 || n = 13 || n = 0x85 || n = 0x2028 || n = 0x2029

/-- Blanks, breaks and the character zero separate words. -/
def isSeparator (c : Char) : Bool := c = ' ' || c = '\t' || isBreak c || c.toNat = 0

def isPrintable (c : Char) : Bool :=
  let n := c.toNat
  n = 10 || (0x20 ≤ n && n ≤ 0x7E) || (0xA0 ≤ n && n != 0xFEFF && n != 0xFFFE && n != 0xFFFF)

/-- Characters that mean something at the start of a scalar. -/
def isIndicator (c : Char) : Bool :=
  "#,[]\x7b\x7d&*!|>'\"%@`".toList.contains c

/-- Whether the character before the rest of a text is followed by white space or the end. -/
def separated (rest : List Char) : Bool := (rest.head?.map isSeparator).getD true

/-- Whether a first character keeps a text from being plain. -/
def startsAsIndicator (c : Char) (rest : List Char) : Bool :=
  isIndicator c || ((c = '?' || c = ':' || c = '-') && separated rest)

/-- Whether a mark inside a text would end a plain scalar; `afterSpace` tells of the character
before. -/
def endsPlain (afterSpace : Bool) : List Char → Bool
  | [] => false
  | c :: rest =>
    (c = ':' && separated rest) || (c = '#' && afterSpace) || endsPlain (isSeparator c) rest

def startsDocument (cs : List Char) : Bool :=
  ['-', '-', '-'].isPrefixOf cs || ['.', '.', '.'].isPrefixOf cs

/-- Whether a space or break of the first kind stands just before one of the second. -/
def hasPair (first second : Char → Bool) : List Char → Bool
  | a :: b :: rest => (first a && second b) || hasPair first second (b :: rest)
  | _ => false

def isSpace (c : Char) : Bool := c = ' '

def isEdge (c : Char) : Bool := isSpace c || isBreak c

structure Analysis where
  plain : Bool
  singleQuotes : Bool
  lines : Bool

def analyse (cs : List Char) : Analysis :=
  match cs with
  | [] => { plain := true, singleQuotes := true, lines := false }
  | c :: rest =>
    let severalLines := cs.any isBreak
    let indicators := startsDocument cs || startsAsIndicator c rest ||
      endsPlain (isSeparator c) rest
    let edges := isEdge c || (cs.getLast?.map isEdge).getD false
    let special := cs.any (fun c => !isPrintable c) || hasPair isSpace isBreak cs
    let indented := hasPair isBreak isSpace cs
    { plain := !(indicators || edges || special || indented || severalLines)
      singleQuotes := !(special || indented)
      lines := !(special || (cs.getLast?.map isSpace).getD false) }

inductive Style where
  | plain
  | singleQuotes
  | doubleQuotes
  | lines
  deriving DecidableEq

def styleOf (cs : List Char) : Style :=
  let a := analyse cs
  let wanted : Style :=
    if cs.contains '\n' then .lines
    else if resolve cs ≠ .text || isPaddedDigits cs then .singleQuotes
    else if a.plain then .plain
    else .singleQuotes
  match wanted with
  | .lines => if a.lines then .lines else .doubleQuotes
  | .singleQuotes => if a.singleQuotes then .singleQuotes else .doubleQuotes
  | style => style

def upperHex (width n : Nat) : List Char := (hexadecimal width n).map Char.toUpper

def doubleQuoted (c : Char) : List Char :=
  let n := c.toNat
  if c = '"' then ['\\', '"']
  else if c = '\\' then ['\\', '\\']
  else if isPrintable c && !isBreak c then [c]
  else if n = 0 then ['\\', '0']
  else if n = 7 then ['\\', 'a']
  else if n = 8 then ['\\', 'b']
  else if n = 9 then ['\\', 't']
  else if n = 10 then ['\\', 'n']
  else if n = 11 then ['\\', 'v']
  else if n = 12 then ['\\', 'f']
  else if n = 13 then ['\\', 'r']
  else if n = 27 then ['\\', 'e']
  else if n = 0x85 then ['\\', 'N']
  else if n = 0x2028 then ['\\', 'L']
  else if n = 0x2029 then ['\\', 'P']
  else if n ≤ 0xFF then '\\' :: 'x' :: upperHex 2 n
  else if n ≤ 0xFFFF then '\\' :: 'u' :: upperHex 4 n
  else '\\' :: 'U' :: upperHex 8 n

def spaces (n : Nat) : List Char := List.replicate n ' '

/-- Text with breaks, indented after each of them; `afterBreak` tells of the character before. -/
def indentedLines (indent : Nat) (afterBreak : Bool) : List Char → List Char
  | [] => []
  | c :: rest =>
    if isBreak c then c :: indentedLines indent true rest
    else (if afterBreak then spaces indent else []) ++ c :: indentedLines indent false rest

def endsInBreak (cs : List Char) : Bool := (cs.getLast?.map isBreak).getD false

/-- How the end of a text on lines of its own is kept: without a break, or with several. -/
def chomping (cs : List Char) : List Char :=
  if !endsInBreak cs then ['-']
  else if cs.length = 1 || endsInBreak cs.dropLast then ['+']
  else []

def writeInline (indent : Nat) (style : Style) (cs : List Char) : List Char :=
  match style with
  | .singleQuotes =>
    let doubled := cs.flatMap fun c => if c = '\'' then ['\'', '\''] else [c]
    '\'' :: indentedLines indent false doubled ++
      (if endsInBreak cs then spaces indent else []) ++ ['\'']
  | .doubleQuotes => '"' :: cs.flatMap doubleQuoted ++ ['"']
  | _ => cs

/-- A text on lines of its own, after a header. -/
def writeOwnLines (indent : Nat) (cs : List Char) : List Char :=
  let hint := if (cs.head?.map isEdge).getD false then ['2'] else []
  '|' :: hint ++ chomping cs ++ '\n' :: indentedLines indent true cs ++
    (if endsInBreak cs then [] else ['\n'])

def writeText (indent : Nat) (s : String) : List Char :=
  let cs := s.toList
  match styleOf cs with
  | .lines => writeOwnLines indent cs
  | style => writeInline indent style cs ++ ['\n']

/-- A key that stands on one line before its value. -/
def isShortKey (cs : List Char) : Bool :=
  !cs.any isBreak && (String.ofList cs).utf8ByteSize ≤ 128

/-- Lists and records with contents are written line by line. -/
def isBlock : Json → Bool
  | .list items => !items.isEmpty
  | .record fields => !fields.isEmpty
  | _ => false

/-- The column of a value under a short key: items stand below the key itself. -/
def columnUnder (indent : Nat) : Json → Nat
  | .list (_ :: _) => indent
  | _ => indent + 2

def leadUnder (indent : Nat) (value : Json) : List Char :=
  if isBlock value then '\n' :: spaces (columnUnder indent value) else [' ']

def writeKey (indent : Nat) (key : String) (value : Json) : List Char :=
  if isShortKey key.toList then
    writeInline (indent + 2) (styleOf key.toList) key.toList ++ ':' :: leadUnder indent value
  else '?' :: ' ' :: writeText (indent + 2) key ++ spaces indent ++ [':', ' ']

def columnOf (indent : Nat) (key : String) (value : Json) : Nat :=
  if isShortKey key.toList then columnUnder indent value else indent + 2

mutual

/-- A value whose lines stand at the column `indent`, its first line being there already. -/
def writeValue (indent : Nat) : Json → List Char
  | .text s => writeText indent s
  | .float x => Decimal.Layout.yaml.write x ++ ['\n']
  | .list items => if items.isEmpty then ['[', ']', '\n'] else writeItems indent true items
  | .record fields =>
    if fields.isEmpty then ['\x7b', '\x7d', '\n'] else writeFields indent true fields
  | .null => Json.null.write ++ ['\n']
  | .bool b => (Json.bool b).write ++ ['\n']
  | .integer n => Json.writeInteger n ++ ['\n']

def writeItems (indent : Nat) (first : Bool) : List Json → List Char
  | [] => []
  | item :: rest =>
    (if first then [] else spaces indent) ++ '-' :: ' ' :: writeValue (indent + 2) item ++
      writeItems indent false rest

def writeFields (indent : Nat) (first : Bool) : List (String × Json) → List Char
  | [] => []
  | (key, value) :: rest =>
    (if first then [] else spaces indent) ++ writeKey indent key value ++
      writeValue (columnOf indent key value) value ++ writeFields indent false rest

end

def print (j : Json) : String := String.ofList (writeValue 0 j)

end Stevedore.Yaml
