import Stevedore.Decimal.Reading
import Stevedore.Json.Reader
import Stevedore.Template.Syntax

/-! The tags of a template: what stands between braces, read from the braces on. -/
namespace Stevedore.Template

/-- A reading of the start of a text: a value and what is left, or none. -/
abbrev Reading (α : Type) := Option (α × List Char)

def isGap (c : Char) : Bool := c = ' ' || c = '\t' || c = '\n' || c = '\r'

def skipGap (cs : List Char) : List Char := cs.dropWhile isGap

def isNameChar (c : Char) : Bool :=
  c.isAlphanum || c = '_' || c = '$' || c = '-' || 0x80 ≤ c.toNat

def takeName (cs : List Char) : Reading String :=
  match cs.takeWhile isNameChar with
  | [] => none
  | name => some (String.ofList name, cs.dropWhile isNameChar)

/-- The rest after a fixed text, if it comes first. -/
def dropText (text : List Char) (cs : List Char) : Option (List Char) :=
  if text.isPrefixOf cs then some (cs.drop text.length) else none

def endsWord (cs : List Char) : Bool := !(cs.head?.map isNameChar).getD false

def dropWord (word : List Char) (cs : List Char) : Option (List Char) :=
  (dropText word cs).filter endsWord

def isKeyword (cs : List Char) : Bool :=
  (dropWord ['a', 's'] cs).isSome || (dropWord ['e', 'l', 's', 'e'] cs).isSome

/-- One step of a way: a name, or any text in square brackets. -/
def takeStep (cs : List Char) : Reading String :=
  match cs with
  | '[' :: rest =>
    match rest.dropWhile (· ≠ ']') with
    | ']' :: after => some (String.ofList (rest.takeWhile (· ≠ ']')), after)
    | _ => none
  | _ => takeName cs

/-- Further steps, each after a dot or a slash. -/
def takeSteps : Nat → List Char → List String × List Char
  | 0, cs => ([], cs)
  | fuel + 1, cs =>
    match cs with
    | c :: rest =>
      if c = '.' ∨ c = '/' then
        match takeStep rest with
        | some (name, rest) =>
          let (names, rest) := takeSteps fuel rest
          (name :: names, rest)
        | none => ([], cs)
      else ([], cs)
    | [] => ([], cs)

def takeUps : Nat → List Char → Nat × List Char
  | 0, cs => (0, cs)
  | fuel + 1, cs =>
    match cs with
    | '.' :: '.' :: c :: rest =>
      if c = '.' ∨ c = '/' then
        let (n, rest) := takeUps fuel rest
        (n + 1, rest)
      else (0, cs)
    | _ => (0, cs)

/-- Passes over a start that stays in the current scope. -/
def dropCurrent (cs : List Char) : List Char :=
  match dropText ['t', 'h', 'i', 's', '.'] cs, dropText ['t', 'h', 'i', 's', '/'] cs,
      dropText ['.', '/'] cs with
  | some rest, _, _ => rest
  | _, some rest, _ => rest
  | _, _, some rest => rest
  | _, _, _ => cs

def dropRoot (cs : List Char) : Option (List Char) :=
  match dropText ['@', 'r', 'o', 'o', 't'] cs with
  | some (c :: rest) => if c = '.' ∨ c = '/' then some rest else none
  | _ => none

/-- The written form of what was read before `rest`. -/
def written (cs rest : List Char) : String := String.ofList (cs.take (cs.length - rest.length))

def takeReference (cs : List Char) : Reading (String × Reference) :=
  let start := dropCurrent cs
  let (fromRoot, afterRoot) := match dropRoot start with
    | some rest => (true, rest)
    | none => (false, start)
  let (isLocal, afterMark) := match afterRoot with
    | '@' :: rest => (true, rest)
    | rest => (false, rest)
  let (up, afterUps) := takeUps afterMark.length afterMark
  match takeStep afterUps with
  | none => none
  | some (first, rest) =>
    let (others, rest) := takeSteps rest.length rest
    let names := (first :: others).filter (· ≠ "this")
    let target :=
      if isLocal && !fromRoot then
        match names with
        | name :: _ => Reference.variable up name
        | [] => .way false 0 names
      else .way fromRoot (if fromRoot then 0 else up) names
    some ((written cs rest, target), rest)

/-- The body of a text in quotes, with its escapes, and what follows the closing quote. -/
def takeQuoted (quote : Char) : Nat → List Char → Reading (List Char)
  | 0, _ => none
  | fuel + 1, cs =>
    match cs with
    | '\\' :: c :: rest =>
      (takeQuoted quote fuel rest).map fun (body, rest) => ('\\' :: c :: body, rest)
    | c :: rest =>
      if c = quote then some ([], rest)
      else (takeQuoted quote fuel rest).map fun (body, rest) => (c :: body, rest)
    | [] => none

/-- Turns the body of a text in single quotes into the body of one in double quotes. -/
def requote : List Char → List Char
  | '\\' :: '\'' :: rest => '\'' :: requote rest
  | '\\' :: c :: rest => '\\' :: c :: requote rest
  | '"' :: rest => '\\' :: '"' :: requote rest
  | c :: rest => c :: requote rest
  | [] => []

def takeText (cs : List Char) : Reading Json :=
  match cs with
  | '"' :: rest =>
    match takeQuoted '"' (rest.length + 1) rest with
    | some (body, rest) => (Json.read? (String.ofList ('"' :: body ++ ['"']))).map (·, rest)
    | none => none
  | '\'' :: rest =>
    match takeQuoted '\'' (rest.length + 1) rest with
    | some (body, rest) => (Json.read? (String.ofList ('"' :: requote body ++ ['"']))).map (·, rest)
    | none => none
  | _ => none

def takeNumber (cs : List Char) : Reading Json :=
  let (sign, body) := match cs with
    | '-' :: rest => (['-'], rest)
    | rest => ([], rest)
  let whole := body.takeWhile Char.isDigit
  let rest := body.dropWhile Char.isDigit
  let (fraction, rest) := match rest with
    | '.' :: r => ('.' :: r.takeWhile Char.isDigit, r.dropWhile Char.isDigit)
    | r => ([], r)
  let (power, rest) := match rest with
    | 'E' :: '-' :: d :: r =>
      if d.isDigit then (['E', '-', d] ++ r.takeWhile Char.isDigit, r.dropWhile Char.isDigit)
      else ([], rest)
    | 'E' :: d :: r =>
      if d.isDigit then (['E', d] ++ r.takeWhile Char.isDigit, r.dropWhile Char.isDigit)
      else ([], rest)
    | _ => ([], rest)
  if whole.isEmpty || !endsWord rest then none
  else (Json.read? (String.ofList (sign ++ whole ++ fraction ++ power))).map (·, rest)

def takeWordLiteral (cs : List Char) : Reading Json :=
  match dropWord ['n', 'u', 'l', 'l'] cs, dropWord ['t', 'r', 'u', 'e'] cs,
      dropWord ['f', 'a', 'l', 's', 'e'] cs with
  | some rest, _, _ => some (.null, rest)
  | _, some rest, _ => some (.bool true, rest)
  | _, _, some rest => some (.bool false, rest)
  | _, _, _ => none

mutual

def takeLiteral : Nat → List Char → Reading Json
  | 0, _ => none
  | fuel + 1, cs =>
    match cs with
    | '"' :: _ => takeText cs
    | '\'' :: _ => takeText cs
    | '[' :: rest =>
      match skipGap rest with
      | ']' :: rest => some (.list [], rest)
      | rest => (takeLiterals fuel rest).map fun (items, rest) => (.list items, rest)
    | '\x7b' :: rest =>
      match skipGap rest with
      | '\x7d' :: rest => some (.record [], rest)
      | rest => (takeLiteralFields fuel rest).map fun (fields, rest) => (Json.ofFields fields, rest)
    | _ => (takeWordLiteral cs).or (takeNumber cs)

def takeLiterals : Nat → List Char → Reading (List Json)
  | 0, _ => none
  | fuel + 1, cs =>
    match takeLiteral fuel cs with
    | none => none
    | some (item, rest) =>
      match skipGap rest with
      | ']' :: rest => some ([item], rest)
      | ',' :: rest => (takeLiterals fuel (skipGap rest)).map fun (items, rest) => (item :: items, rest)
      | _ => none

def takeLiteralFields : Nat → List Char → Reading (List (String × Json))
  | 0, _ => none
  | fuel + 1, cs =>
    match takeText cs with
    | some (.text name, rest) =>
      match skipGap rest with
      | ':' :: rest =>
        match takeLiteral fuel (skipGap rest) with
        | none => none
        | some (value, rest) =>
          match skipGap rest with
          | '\x7d' :: rest => some ([(name, value)], rest)
          | ',' :: rest =>
            (takeLiteralFields fuel (skipGap rest)).map fun (fields, rest) =>
              ((name, value) :: fields, rest)
          | _ => none
      | _ => none
    | _ => none

end

abbrev Operands := List Argument × List (String × Argument)

mutual

/-- One argument; the words that open other parts of a tag are none. -/
def takeArgument : Nat → List Char → Reading Argument
  | 0, _ => none
  | fuel + 1, cs =>
    if isKeyword cs then none
    else
      match takeLiteral fuel cs with
      | some (value, rest) => some (.literal value, rest)
      | none =>
        match takeReference cs with
        | some ((_, target), rest) => some (.reference target, rest)
        | none => takeCall fuel cs

def takeCall : Nat → List Char → Reading Argument
  | 0, _ => none
  | fuel + 1, cs =>
    match cs with
    | '(' :: rest =>
      let start := skipGap rest
      let named := match takeName start with
        | some (name, rest) =>
          let ((args, options), rest) := takeOperands fuel (skipGap rest)
          if args.isEmpty && options.isEmpty then none
          else
            match skipGap rest with
            | ')' :: rest => some (Argument.call name args options, rest)
            | _ => none
        | none => none
      match named with
      | some found => some found
      | none =>
        match takeReference start with
        | some ((name, _), rest) =>
          match skipGap rest with
          | ')' :: rest => some (.call name [] [], rest)
          | _ => none
        | none => none
    | _ => none

def takeOperands : Nat → List Char → Operands × List Char
  | 0, cs => (([], []), cs)
  | fuel + 1, cs =>
    let option := match takeName cs with
      | some (name, rest) =>
        match skipGap rest with
        | '=' :: rest => (takeArgument fuel (skipGap rest)).map fun (a, rest) => ((name, a), rest)
        | _ => none
      | none => none
    match option with
    | some (entry, rest) =>
      let ((args, options), rest) := takeOperands fuel (skipGap rest)
      ((args, entry :: options), rest)
    | none =>
      match takeArgument fuel cs with
      | some (a, rest) =>
        let ((args, options), rest) := takeOperands fuel (skipGap rest)
        ((a :: args, options), rest)
      | none => (([], []), cs)

end

def takeNames (cs : List Char) : Reading (List String) :=
  match dropText ['a', 's'] cs with
  | some rest =>
    match skipGap rest with
    | '|' :: rest =>
      match takeName (skipGap rest) with
      | some (first, rest) =>
        match skipGap rest with
        | '|' :: rest => some ([first], rest)
        | rest =>
          match takeName rest with
          | some (second, rest) =>
            match skipGap rest with
            | '|' :: rest => some ([first, second], rest)
            | _ => none
          | none => none
      | none => none
    | _ => none
  | none => none

def takeHead (cs : List Char) : Reading Head :=
  match takeName cs with
  | none => none
  | some (name, rest) =>
    let ((args, options), rest) := takeOperands (2 * cs.length + 2) (skipGap rest)
    match takeNames rest with
    | some (names, rest) => some ({ name, args, options, names }, rest)
    | none => some ({ name, args, options, names := [] }, rest)

inductive Tag where
  | show_ (name : String) (target : Reference)
  | result (call : Argument)
  | call (head : Head)
  | open_ (head : Head)
  | otherwise (chained : Option Head)
  | close (name : String)
  | comment
  | inclusion (head : Head)
  deriving Inhabited

/-- A tag and whether it swallows the white space before and after it. -/
structure Marked where
  tag : Tag
  before : Bool
  after : Bool
  deriving Inhabited

/-- What an expression shows: a call with operands, a reference, or a call in parentheses. -/
def takeExpression (cs : List Char) : Reading Tag :=
  let fuel := 2 * cs.length + 2
  let called := match takeName cs with
    | some (name, rest) =>
      let ((args, options), rest) := takeOperands fuel (skipGap rest)
      if args.isEmpty && options.isEmpty then none
      else some (Tag.call { name, args, options, names := [] }, rest)
    | none => none
  match called with
  | some found => some found
  | none =>
    match takeCall fuel cs with
    | some (call, rest) => some (.result call, rest)
    | none => (takeReference cs).map fun ((name, target), rest) => (.show_ name target, rest)

def takeEnd (closing : List Char) (cs : List Char) : Reading Bool :=
  let rest := skipGap cs
  let (after, rest) := match rest with
    | '~' :: rest => (true, skipGap rest)
    | rest => (false, rest)
  (dropText closing rest).map fun rest => (after, rest)

/-- A mark at the start of a tag that swallows white space. -/
def takeMark (cs : List Char) : Bool × List Char :=
  match skipGap cs with
  | '~' :: rest => (true, skipGap rest)
  | rest => (false, rest)

def closing2 : List Char := ['\x7d', '\x7d']
def closing3 : List Char := ['\x7d', '\x7d', '\x7d']

/-- Reads a body and then the end of its tag. -/
def finish (before : Bool) (closing : List Char) (body : Reading Tag) : Reading Marked :=
  match body with
  | none => none
  | some (tag, rest) => (takeEnd closing rest).map fun (after, rest) => ({ tag, before, after }, rest)

/-- The rest after a comment that starts with two dashes and ends with two dashes. -/
def dropDashed : List Char → Reading Bool
  | [] => none
  | '-' :: '-' :: rest => takeEnd closing2 rest
  | _ :: rest => dropDashed rest

/-- The rest after a comment that ends with its tag. -/
def dropComment : List Char → Reading Bool
  | [] => none
  | '~' :: '\x7d' :: '\x7d' :: rest => some (true, rest)
  | '\x7d' :: '\x7d' :: rest => some (false, rest)
  | _ :: rest => dropComment rest

def takeComment (cs : List Char) : Reading Bool :=
  match cs with
  | '-' :: '-' :: rest => (dropDashed rest).or (dropComment cs)
  | _ => dropComment cs

def takeInclusionName (cs : List Char) : Reading String :=
  let isPart (c : Char) := isNameChar c || c = '/' || c = '.'
  match cs.takeWhile isPart with
  | [] => none
  | name => some (String.ofList name, cs.dropWhile isPart)

def takeInclusion (cs : List Char) : Reading Tag :=
  match takeInclusionName cs with
  | none => none
  | some (name, rest) =>
    let ((args, options), rest) := takeOperands (2 * cs.length + 2) (skipGap rest)
    some (.inclusion { name, args, options, names := [] }, rest)

/-- The word that turns a block to its other part, alone or before a further head. -/
def takeOtherwise (cs : List Char) : Reading Tag :=
  let rest := match cs with
    | '^' :: rest => some rest
    | _ => dropWord ['e', 'l', 's', 'e'] cs
  match rest with
  | none => none
  | some rest =>
    match takeEnd closing2 rest with
    | some _ => some (.otherwise none, rest)
    | none => (takeHead (skipGap rest)).map fun (head, rest) => (.otherwise (some head), rest)

/-- An expression between three braces, after the third one. -/
def takeTriple (before : Bool) (cs : List Char) : Reading Marked :=
  let (inner, rest) := takeMark cs
  match takeExpression rest with
  | none => none
  | some (tag, rest) =>
    match takeEnd closing3 rest with
    | some (after, rest) => some ({ tag, before := before || inner, after }, rest)
    | none =>
      match skipGap rest with
      | '\x7d' :: rest => finish before closing2 (some (tag, rest))
      | _ => none

def takeTag (cs : List Char) : Reading Marked :=
  let (before, rest) := takeMark cs
  match rest with
  | '!' :: rest => (takeComment rest).map fun (after, rest) => ({ tag := .comment, before, after }, rest)
  | '#' :: rest =>
    finish before closing2 ((takeHead (skipGap rest)).map fun (head, rest) => (.open_ head, rest))
  | '/' :: rest =>
    finish before closing2 ((takeName (skipGap rest)).map fun (name, rest) => (.close name, rest))
  | '>' :: rest => finish before closing2 (takeInclusion (skipGap rest))
  | '&' :: rest =>
    finish before closing2 ((takeReference (skipGap rest)).map fun ((name, target), rest) =>
      (.show_ name target, rest))
  | '\x7b' :: rest => takeTriple before rest
  | _ =>
    match finish before closing2 (takeOtherwise rest) with
    | some found => some found
    | none => finish before closing2 (takeExpression rest)

end Stevedore.Template
