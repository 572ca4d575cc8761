import Stevedore.Template.Tag
import Stevedore.Text.Basic

/-!
From the source of a template to its structure. A tag alone on its line takes the line with it,
and a mark in a tag swallows the white space beside it.
-/
namespace Stevedore.Template

structure Place where
  position : Position
  blank : Bool

namespace Place

def start : Place := ⟨⟨1, 1⟩, true⟩

def isLineEnd (c : Char) : Bool := c = '\n' || c = '\r'

def isIndent (c : Char) : Bool := c = ' ' || c = '\t'

def step (p : Place) (c : Char) : Place :=
  { position := if c = '\n' then ⟨p.position.line + 1, 1⟩
      else ⟨p.position.line, p.position.column + 1⟩
    blank := isLineEnd c || (p.blank && isIndent c) }

def after (p : Place) (cs : List Char) : Place := cs.foldl step p

end Place

/-- Text between tags, or a tag with its place and whether it stands alone on its line. -/
inductive Piece where
  | text (chars : List Char)
  | tag (position : Position) (marked : Marked) (alone : Bool)
  deriving Inhabited

/-- Plain text up to the next tag: as it is shown, as it is written, and what follows. A
backslash before an opening tag makes it plain; two of them stand for one. -/
def takePlain : Nat → List Char → List Char × List Char × List Char
  | 0, cs => ([], [], cs)
  | fuel + 1, cs =>
    match cs with
    | '\x7b' :: '\x7b' :: rest => ([], [], '\x7b' :: '\x7b' :: rest)
    | '\\' :: '\x7b' :: '\x7b' :: '\x7b' :: '\x7b' :: rest =>
      let (shown, source, left) := takePlain fuel rest
      (['\x7b', '\x7b', '\x7b', '\x7b'] ++ shown,
        ['\\', '\x7b', '\x7b', '\x7b', '\x7b'] ++ source, left)
    | '\\' :: '\x7b' :: '\x7b' :: rest =>
      let (shown, source, left) := takePlain fuel rest
      (['\x7b', '\x7b'] ++ shown, ['\\', '\x7b', '\x7b'] ++ source, left)
    | '\\' :: '\\' :: rest =>
      match rest.dropWhile (· = '\\') with
      | '\x7b' :: '\x7b' :: left =>
        let slashes := rest.takeWhile (· = '\\')
        ('\\' :: slashes, '\\' :: '\\' :: slashes, '\x7b' :: '\x7b' :: left)
      | _ =>
        let (shown, source, left) := takePlain fuel ('\\' :: rest)
        ('\\' :: shown, '\\' :: source, left)
    | c :: rest =>
      let (shown, source, left) := takePlain fuel rest
      (c :: shown, c :: source, left)
    | [] => ([], [], [])

def endsLine (cs : List Char) : Bool :=
  cs.isEmpty || ((cs.dropWhile Place.isIndent).head?.map Place.isLineEnd).getD false

/-- Tags that take a blank line with them. -/
def Tag.takesLine : Tag → Bool
  | .open_ _ => true
  | .otherwise _ => true
  | .close _ => true
  | .comment => true
  | .inclusion _ => true
  | _ => false

/-- Tags that take the white space before them on a blank line. -/
def Tag.takesIndent : Tag → Bool
  | .inclusion _ => false
  | tag => tag.takesLine

/-- The rest after four opening braces. -/
def dropRawOpening (cs : List Char) : Option (List Char) :=
  dropText ['\x7b', '\x7b', '\x7b', '\x7b'] cs

def closing4 : List Char := ['\x7d', '\x7d', '\x7d', '\x7d']

/-- Raw text up to the next four opening braces: as shown, as written, and what follows. -/
def takeRaw : Nat → List Char → List Char × List Char × List Char
  | 0, cs => ([], [], cs)
  | fuel + 1, cs =>
    match dropRawOpening cs with
    | some _ => ([], [], cs)
    | none =>
      match cs with
      | c :: rest =>
        let (shown, source, left) := takeRaw fuel rest
        (c :: shown, c :: source, left)
      | [] => ([], [], [])

def takeRawBlock (place : Place) (cs : List Char) : Option (List Piece × List Char) :=
  match dropRawOpening cs with
  | none => none
  | some rest =>
    let (before, rest) := takeMark rest
    match takeHead rest with
    | none => none
    | some (head, rest) =>
      match takeEnd closing4 rest with
      | none => none
      | some (after, rest) =>
        let (shown, _, left) := takeRaw rest.length rest
        match dropRawOpening left with
        | none => none
        | some close =>
          let (closeBefore, close) := takeMark close
          match close with
          | '/' :: close =>
            match takeName (skipGap close) with
            | none => none
            | some (name, close) =>
              (takeEnd closing4 close).map fun (closeAfter, tail) =>
                let written := cs.take (cs.length - left.length)
                ([.tag place.position ⟨.open_ head, before, after⟩ (place.blank && endsLine rest),
                  .text shown,
                  .tag (place.after written).position ⟨.close name, closeBefore, closeAfter⟩
                    ((place.after written).blank && endsLine tail)], tail)
          | _ => none

def pieces? : Nat → Place → List Char → Option (List Piece)
  | 0, _, _ => none
  | fuel + 1, place, cs =>
    match cs with
    | [] => some []
    | _ =>
      let (shown, source, rest) := takePlain (fuel + 1) cs
      if source.isEmpty then
        match takeTag (rest.drop 2) with
        | some (marked, left) =>
          let next := place.after (rest.take (rest.length - left.length))
          let alone := marked.tag.takesLine && place.blank && endsLine left
          (pieces? fuel next left).map (.tag place.position marked alone :: ·)
        | none =>
          match takeRawBlock place rest with
          | some (block, left) =>
            let next := place.after (rest.take (rest.length - left.length))
            (pieces? fuel next left).map (block ++ ·)
          | none => none
      else (pieces? fuel (place.after source) rest).map (.text shown :: ·)

/-- How the text after a tag starts: all white space is dropped, or the rest of its line is. -/
structure Trim where
  space : Bool
  line : Bool

def Trim.none : Trim := ⟨false, false⟩

def dropLineEnd : List Char → List Char
  | '\r' :: '\n' :: rest => rest
  | '\n' :: rest => rest
  | cs => cs

def Trim.apply (t : Trim) (cs : List Char) : List Char :=
  if t.space then cs.dropWhile Text.isBlank
  else if t.line then dropLineEnd (cs.dropWhile Place.isIndent)
  else cs

/-- Changes the end of the text that was last added; elements are kept in reverse. -/
def trimLast (p : Char → Bool) : List Element → List Element
  | .text cs :: rest => .text (Text.dropEnd p cs) :: rest
  | elements => elements

/-- What a tag does to the text before it. -/
def Marked.trimBefore (m : Marked) (alone : Bool) (elements : List Element) : List Element :=
  let elements := if m.before then trimLast Text.isBlank elements else elements
  if alone && m.tag.takesIndent then trimLast Place.isIndent elements else elements

structure Branch where
  head : Head
  body : List Element

structure Pending where
  head : Head
  before : List Element
  branches : List Branch
  /-- The head of the part being read; none after the last turn. -/
  current : Option Head

def assembleBranches (position : Position) (last : Option (List Element)) :
    List Branch → Option (List Element)
  | [] => last
  | b :: rest =>
    let inner := some [.block position b.head b.body last]
    assembleBranches position inner rest

structure Building where
  elements : List Element
  open_ : List Pending
  trim : Trim

/-- Adds a piece; none where tags do not fit together. -/
def Building.add (b : Building) : Piece → Option Building
  | .text cs =>
    if b.trim.space && cs.all isGap then some b
    else some { b with elements := .text (b.trim.apply cs) :: b.elements,
                       trim := { b.trim with line := false } }
  | .tag position m alone =>
    let elements := m.trimBefore alone b.elements
    let trim : Trim := ⟨m.after, if m.tag.takesLine then alone else b.trim.line⟩
    match m.tag with
    | .comment => some { b with elements, trim := ⟨b.trim.space || m.after, alone⟩ }
    | .show_ name target =>
      some { b with elements := .value position name target :: elements, trim }
    | .result call => some { b with elements := .result position call :: elements, trim }
    | .call head => some { b with elements := .call position head :: elements, trim }
    | .inclusion head => some { b with elements := .inclusion position head :: elements, trim }
    | .open_ head =>
      some { elements := [], trim,
             open_ := { head, before := elements, branches := [], current := some head } :: b.open_ }
    | .otherwise chained =>
      match b.open_ with
      | [] => none
      | p :: outer =>
        match p.current with
        | none => none
        | some head =>
          let branch := { head, body := elements.reverse }
          let p := { p with branches := branch :: p.branches, current := chained }
          some { elements := [], trim, open_ := p :: outer }
    | .close name =>
      match b.open_ with
      | [] => none
      | p :: outer =>
        if p.head.name ≠ name then none
        else
          let body := elements.reverse
          let parts := match p.current with
            | some head => assembleBranches position none ({ head, body } :: p.branches)
            | none => assembleBranches position (some body) p.branches
          some { elements := parts.getD [] ++ p.before, trim, open_ := outer }

def parse? (source : List Char) : Option (List Element) :=
  (pieces? (source.length + 1) .start source).bind fun pieces =>
    match pieces.foldlM Building.add { elements := [], open_ := [], trim := .none } with
    | some b => if b.open_.isEmpty then some b.elements.reverse else none
    | none => none

end Stevedore.Template
