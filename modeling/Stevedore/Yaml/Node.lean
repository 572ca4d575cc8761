import Stevedore.Yaml.Lexer

/-! The nodes of a YAML document, built from its tokens. -/
namespace Stevedore.Yaml

/-- A tag as it is written out in full. -/
abbrev NodeTag := Option (List Char)

inductive Node where
  | scalar (tag : NodeTag) (style : ScalarStyle) (text : List Char)
  | sequence (tag : NodeTag) (items : List Node)
  | mapping (tag : NodeTag) (entries : List (Node × Node))
  /-- A node that stands elsewhere, by the number of its anchor. -/
  | alias (number : Nat)
  deriving Inhabited

/-- A node with an anchor: the number, the place in the document, and the node. -/
structure Anchored where
  number : Nat
  place : Nat
  node : Node
  deriving Inhabited

/-- A document and what its aliases stand for. -/
structure Graph where
  root : Node
  anchored : List Anchored
  size : Nat

namespace Graph

/-- The node with a number; of several the one that starts last. -/
def find? (g : Graph) (number : Nat) : Option Node :=
  (g.anchored.foldl (fun best a =>
    if a.number = number then
      match best with
      | some b => if b.place < a.place then some a else best
      | none => some a
    else best) none).map Anchored.node

end Graph

/-- Tokens to be read, and what was read of anchors and directives. -/
structure Composer where
  tokens : List Token
  /-- What the handles of tags stand for. -/
  handles : List (List Char × List Char)
  /-- The number of each anchor's name. -/
  names : List (List Char × Nat)
  anchored : List Anchored
  size : Nat

namespace Composer

def next (c : Composer) : Composer := { c with tokens := c.tokens.drop 1 }

def count (c : Composer) (n : Nat) : Composer := { c with size := c.size + n }

def emptyScalar : Node := .scalar none .plain []

/-- Numbers an anchor. A name that is used again gets a new number. -/
def number (c : Composer) (name : List Char) : Nat × Composer :=
  let n := c.names.length
  (n, { c with names := (name, n) :: c.names.filter fun e => e.1 != name })

/-- A node without contents of its own, under an anchor if it has one. -/
def leaf (c : Composer) (anchor : Option (List Char)) (node : Node) : Node × Composer :=
  match anchor with
  | none => (node, c.count 1)
  | some name =>
    let (n, c) := c.number name
    (node, { c with anchored := ⟨n, c.size, node⟩ :: c.anchored }.count 1)

def tagOf? (c : Composer) (handle suffix : List Char) : Option (List Char) :=
  if handle.isEmpty then some suffix
  else (c.handles.lookup handle).map fun stem => stem ++ suffix

/-- The anchor and the tag before a node, in either order. -/
def properties (c : Composer) : Option (Option (List Char) × NodeTag × Composer) :=
  match c.tokens with
  | .anchor name :: .tag handle suffix :: rest =>
    (c.tagOf? handle suffix).map fun tag => (some name, some tag, { c with tokens := rest })
  | .tag handle suffix :: .anchor name :: rest =>
    (c.tagOf? handle suffix).map fun tag => (some name, some tag, { c with tokens := rest })
  | .anchor name :: rest => some (some name, none, { c with tokens := rest })
  | .tag handle suffix :: rest =>
    (c.tagOf? handle suffix).map fun tag => (none, some tag, { c with tokens := rest })
  | _ => some (none, none, c)

/-- The start of a collection: its anchor is numbered before its contents are read. -/
def enter (c : Composer) (anchor : Option (List Char)) : Option Nat × Nat × Composer :=
  match anchor with
  | none => (none, c.size, c.count 1)
  | some name =>
    let (n, c) := c.number name
    (some n, c.size, c.count 1)

def leave (c : Composer) (number : Option Nat) (place : Nat) (node : Node) : Node × Composer :=
  match number with
  | none => (node, c.count 1)
  | some n => (node, { c with anchored := ⟨n, place, node⟩ :: c.anchored }.count 1)

inductive Kind where
  | block
  /-- A block sequence at the column of the key above it. -/
  | flat
  | flow
  deriving DecidableEq

def isNext (c : Composer) (ends : Token → Bool) : Bool := (c.tokens.head?.map ends).getD true

/-- Whether a token ends an entry of a sequence that holds nothing. -/
def endsEntry (kind : Kind) (t : Token) : Bool :=
  match kind, t with
  | .flow, .flowEntry => true
  | .flow, .closeSequence => true
  | .block, .blockEntry => true
  | .block, .blockEnd => true
  | .flat, .blockEntry => true
  | .flat, .key => true
  | .flat, .value => true
  | .flat, .blockEnd => true
  | _, _ => false

/-- Whether a token ends a key or value of a mapping that holds nothing. -/
def endsPart (kind : Kind) (isKey : Bool) (t : Token) : Bool :=
  match kind, t with
  | .flow, .flowEntry => true
  | .flow, .closeMapping => true
  | .flow, .value => isKey
  | .flow, _ => false
  | _, .key => true
  | _, .value => true
  | _, .blockEnd => true
  | _, _ => false

def absent (c : Composer) : Node × Composer := (emptyScalar, c.count 1)

mutual

/-- A node. Block collections are admitted where `block` holds, and a sequence without
indentation of its own where `flat` holds. -/
def node : Nat → Bool → Bool → Composer → Option (Node × Composer)
  | 0, _, _, _ => none
  | fuel + 1, block, flat, c =>
    match c.tokens with
    | .alias name :: _ => (c.names.lookup name).map fun n => (.alias n, c.next.count 1)
    | _ =>
      match c.properties with
      | none => none
      | some (anchor, tag, c) =>
        let bare := if anchor.isSome || tag.isSome
          then some (c.leaf anchor (.scalar tag .plain [])) else none
        match c.tokens with
        | .scalar style text :: _ =>
          some (c.next.leaf anchor (.scalar (if tag = some ['!'] then none else tag) style text))
        | .openSequence :: _ => sequence fuel .flow anchor tag c.next
        | .openMapping :: _ => mapping fuel .flow anchor tag c.next
        | .blockSequence :: _ => if block then sequence fuel .block anchor tag c.next else bare
        | .blockMapping :: _ => if block then mapping fuel .block anchor tag c.next else bare
        | .blockEntry :: _ => if flat then sequence fuel .flat anchor tag c else bare
        | _ => bare

def sequence : Nat → Kind → Option (List Char) → NodeTag → Composer → Option (Node × Composer)
  | 0, _, _, _, _ => none
  | fuel + 1, kind, anchor, tag, c =>
    let (number, place, c) := c.enter anchor
    (items fuel kind true [] c).map fun (items, c) => c.leave number place (.sequence tag items)

def mapping : Nat → Kind → Option (List Char) → NodeTag → Composer → Option (Node × Composer)
  | 0, _, _, _, _ => none
  | fuel + 1, kind, anchor, tag, c =>
    let (number, place, c) := c.enter anchor
    (entries fuel kind true [] c).map fun (entries, c) =>
      c.leave number place (.mapping tag entries)

/-- The items of a sequence to its end, those so far in reverse. -/
def items : Nat → Kind → Bool → List Node → Composer → Option (List Node × Composer)
  | 0, _, _, _, _ => none
  | fuel + 1, kind, first, acc, c =>
    match kind, c.tokens with
    | .flow, .closeSequence :: _ => some (acc.reverse, c.next)
    | .flow, .flowEntry :: _ =>
      if first then none
      else if c.next.isNext (· = .closeSequence) then some (acc.reverse, c.next.next)
      else
        match flowItem fuel c.next with
        | none => none
        | some (item, c) => items fuel kind false (item :: acc) c
    | .flow, _ =>
      if !first then none
      else
        match flowItem fuel c with
        | none => none
        | some (item, c) => items fuel kind false (item :: acc) c
    | _, .blockEntry :: _ =>
      if c.next.isNext (endsEntry kind) then
        let (item, c) := c.next.absent
        items fuel kind false (item :: acc) c
      else
        match node fuel true false c.next with
        | none => none
        | some (item, c) => items fuel kind false (item :: acc) c
    | .block, .blockEnd :: _ => some (acc.reverse, c.next)
    | .flat, _ => some (acc.reverse, c)
    | _, _ => none

/-- An item of a flow sequence: a node, or a mapping of one entry. -/
def flowItem : Nat → Composer → Option (Node × Composer)
  | 0, _ => none
  | fuel + 1, c =>
    match c.tokens with
    | .key :: _ =>
      let c := c.next.count 1
      let key :=
        if c.isNext fun t => t = .value || endsEntry .flow t then some c.next.absent
        else node fuel false false c
      match key with
      | none => none
      | some (key, c) =>
        let value :=
          match c.tokens with
          | .value :: _ =>
            if c.next.isNext (endsEntry .flow) then some c.next.absent
            else node fuel false false c.next
          | _ => some c.absent
        value.map fun (value, c) => (.mapping none [(key, value)], c.count 1)
    | _ => node fuel false false c

/-- The entries of a mapping to its end, those so far in reverse. -/
def entries : Nat → Kind → Bool → List (Node × Node) → Composer →
    Option (List (Node × Node) × Composer)
  | 0, _, _, _, _ => none
  | fuel + 1, kind, first, acc, c =>
    match kind, c.tokens with
    | .flow, .closeMapping :: _ => some (acc.reverse, c.next)
    | .flow, .flowEntry :: _ =>
      if first then none
      else if c.next.isNext (· = .closeMapping) then some (acc.reverse, c.next.next)
      else
        match entry fuel kind c.next with
        | none => none
        | some (e, c) => entries fuel kind false (e :: acc) c
    | .flow, _ =>
      if !first then none
      else
        match entry fuel kind c with
        | none => none
        | some (e, c) => entries fuel kind false (e :: acc) c
    | _, .key :: _ =>
      match entry fuel kind c with
      | none => none
      | some (e, c) => entries fuel kind false (e :: acc) c
    | _, .blockEnd :: _ => some (acc.reverse, c.next)
    | _, _ => none

/-- A key and its value; a node without a mark is a key without a value. -/
def entry : Nat → Kind → Composer → Option ((Node × Node) × Composer)
  | 0, _, _ => none
  | fuel + 1, kind, c =>
    let block := kind != .flow
    match c.tokens with
    | .key :: _ =>
      let c := c.next
      let key := if c.isNext (endsPart kind true) then some c.absent else node fuel block block c
      match key with
      | none => none
      | some (key, c) =>
        let value :=
          match c.tokens with
          | .value :: _ =>
            if c.next.isNext (endsPart kind false) then some c.next.absent
            else node fuel block block c.next
          | _ => some c.absent
        value.map fun (value, c) => ((key, value), c)
    | _ =>
      (node fuel block block c).map fun (key, c) =>
        let (value, c) := c.absent
        ((key, value), c)

end

end Composer

def defaultHandles : List (List Char × List Char) :=
  [(['!'], ['!']), (['!', '!'], "tag:yaml.org,2002:".toList)]

/-- The directives before a document: a version at most once, and each handle at most once. -/
def directives : Bool → List (List Char × List Char) → List Token →
    Option (Bool × List (List Char × List Char) × List Token)
  | seen, handles, .version major minor :: rest =>
    if seen || major ≠ 1 || (minor ≠ 1 && minor ≠ 2) then none else directives true handles rest
  | seen, handles, .tagHandle handle stem :: rest =>
    if (handles.lookup handle).isSome then none
    else directives seen ((handle, stem) :: handles) rest
  | seen, handles, rest => some (seen || !handles.isEmpty, handles, rest)

def isFinished (tokens : List Token) : Bool := tokens.all (· = .documentEnd)

/-- The one document of a text; none where there is none, or more than one. -/
def document? (cs : List Char) : Option Graph := do
  let tokens ← tokens? cs
  let (directed, handles, tokens) ← directives false [] tokens
  let explicit := tokens.head? = some .documentStart
  if tokens.isEmpty || (directed && !explicit) then none
  else
    let c : Composer :=
      { tokens := if explicit then tokens.drop 1 else tokens
        handles := handles ++ defaultHandles, names := [], anchored := [], size := 0 }
    let bare := explicit && c.isNext fun t => match t with
      | .version _ _ => true
      | .tagHandle _ _ => true
      | .documentStart => true
      | .documentEnd => true
      | _ => false
    let (root, c) ← if bare then some c.absent
      else c.node (8 * tokens.length + 8) true false
    if isFinished c.tokens then some ⟨root, c.anchored, c.size⟩ else none

end Stevedore.Yaml
