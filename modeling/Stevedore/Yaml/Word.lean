import Stevedore.Decimal.Reading
import Stevedore.Text.Basic
import Stevedore.Yaml.Cursor
import Stevedore.Yaml.Token

/-! Anchors, aliases, tags and directives of a YAML text. -/
namespace Stevedore.Yaml

def isWordChar (c : Char) : Bool := c.isAlphanum || c = '_' || c = '-'

def scanAnchorName (c : Cursor) : Option (List Char × Cursor) :=
  let (name, after) := c.takeWhile isWordChar
  let ends := after.endsWordAt 0 ||
    Cursor.holds (fun ch => "?:,]\x7d%@`".toList.contains ch) after.head?
  if name.isEmpty || !ends then none else some (name, after)

/-- The handle of a tag: a mark, and maybe a word with a second mark. -/
def scanHandle (c : Cursor) : Option (List Char × Cursor) :=
  if c.isAt '!' then
    let (word, after) := c.next.takeWhile isWordChar
    if after.isAt '!' then some ('!' :: word ++ ['!'], after.next) else some ('!' :: word, after)
  else none

def isUriChar (verbatim : Bool) (c : Char) : Bool :=
  isWordChar c || ";/?:@&=+$.%!~*'()".toList.contains c ||
    (verbatim && (c = ',' || c = '[' || c = ']'))

/-- One byte written as a percent sign and two digits. -/
def scanEscapedByte (cs : List Char) : Option (Nat × List Char) :=
  match cs with
  | '%' :: a :: b :: rest => (Text.hexNumber? [a, b]).map (·, rest)
  | _ => none

/-- As many further bytes of one character as its first byte asks for. -/
def scanMoreBytes : Nat → List Char → Option (List UInt8 × List Char)
  | 0, cs => some ([], cs)
  | n + 1, cs =>
    match scanEscapedByte cs with
    | none => none
    | some (b, rest) => (scanMoreBytes n rest).map fun (bs, rest) => (UInt8.ofNat b :: bs, rest)

def scanEscapedChar (cs : List Char) : Option (List Char × List Char) :=
  match scanEscapedByte cs with
  | none => none
  | some (b, rest) =>
    let more := if b < 0x80 then some 0 else if b / 32 = 6 then some 1
      else if b / 16 = 14 then some 2 else if b / 8 = 30 then some 3 else none
    match more with
    | none => none
    | some n =>
      match scanMoreBytes n rest with
      | none => none
      | some (bs, rest) =>
        (String.fromUTF8? ⟨(UInt8.ofNat b :: bs).toArray⟩).map fun s => (s.toList, rest)

def scanUri (verbatim : Bool) : Nat → List Char → Option (List Char × List Char)
  | 0, _ => none
  | fuel + 1, cs =>
    match cs with
    | '%' :: _ =>
      match scanEscapedChar cs with
      | none => none
      | some (text, rest) => (scanUri verbatim fuel rest).map fun (more, rest) => (text ++ more, rest)
    | c :: rest =>
      if isUriChar verbatim c then
        (scanUri verbatim fuel rest).map fun (more, rest) => (c :: more, rest)
      else some ([], cs)
    | [] => some ([], [])

def scanUriAt (verbatim : Bool) (c : Cursor) : Option (List Char × Cursor) :=
  (scanUri verbatim (c.rest.length + 1) c.rest).map fun (text, rest) =>
    let used := c.rest.length - rest.length
    (text, { c with rest, index := c.index + used, column := c.column + used })

/-- A tag: its handle and suffix. A lone mark has no handle. -/
def scanTag (inFlow : Bool) (c : Cursor) : Option (Token × Cursor) :=
  let found : Option ((List Char × List Char) × Cursor) :=
    if c.peek? 1 = some '<' then
      match scanUriAt true (Cursor.advance 2 c) with
      | some (suffix, after) =>
        if !suffix.isEmpty && after.isAt '>' then some (([], suffix), after.next) else none
      | none => none
    else
      match scanHandle c with
      | none => none
      | some (handle, after) =>
        match scanUriAt false after with
        | none => none
        | some (suffix, tail) =>
          if 1 < handle.length ∧ handle.getLast? = some '!' then
            if suffix.isEmpty then none else some ((handle, suffix), tail)
          else
            let suffix := handle.drop 1 ++ suffix
            if suffix.isEmpty then some (([], ['!']), tail) else some ((['!'], suffix), tail)
  match found with
  | none => none
  | some ((handle, suffix), after) =>
    if after.endsWordAt 0 || (inFlow && after.isAt ',') then some (.tag handle suffix, after)
    else none

def scanVersionNumber (c : Cursor) : Option (Nat × Cursor) :=
  let (digits, after) := c.takeWhile Char.isDigit
  if digits.isEmpty || 9 < digits.length then none
  else some (Decimal.digitsValue digits, after)

def scanVersion (c : Cursor) : Option (Token × Cursor) :=
  match scanVersionNumber c.skipBlanks with
  | none => none
  | some (major, after) =>
    if after.isAt '.' then
      (scanVersionNumber after.next).map fun (minor, after) => (.version major minor, after)
    else none

def scanTagDirective (c : Cursor) : Option (Token × Cursor) :=
  match scanHandle c.skipBlanks with
  | none => none
  | some (handle, after) =>
    if handle ≠ ['!'] ∧ handle.getLast? ≠ some '!' then none
    else if !after.atBlank then none
    else
      match scanUriAt true after.skipBlanks with
      | none => none
      | some (stem, after) =>
        if stem.isEmpty || !after.endsWordAt 0 then none else some (.tagHandle handle stem, after)

/-- A directive, from its percent sign to the end of its line. -/
def scanDirective (c : Cursor) : Option (Token × Cursor) :=
  let (name, after) := c.next.takeWhile isWordChar
  let found :=
    if !after.endsWordAt 0 then none
    else if name = "YAML".toList then scanVersion after
    else if name = "TAG".toList then scanTagDirective after
    else none
  match found with
  | none => none
  | some (token, after) => after.skipToLineEnd.map fun after => (token, after)

end Stevedore.Yaml
