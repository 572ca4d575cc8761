import Stevedore.Template.Syntax
import Stevedore.Template.Value

/-! The text that a template gives for a record of bindings. -/
namespace Stevedore.Template

-- the powers of the core library, whatever else is imported
attribute [local instance (high)] instPowNat

structure Failure where
  reason : String
  position : Option Position
  template : Option String

def fail {α : Type} (reason : String) : Except Failure α :=
  .error { reason, position := none, template := none }

/-- Gives a failure a position unless it has one. -/
def placed {α : Type} (position : Position) : Except Failure α → Except Failure α
  | .error f => .error { f with position := f.position.or (some position) }
  | r => r

def Failure.message (f : Failure) : String :=
  let place := match f.position with
    | some p =>
      "Error rendering \"" ++ f.template.getD "Unnamed template" ++ "\" line " ++
        toString p.line ++ ", col " ++ toString p.column ++ ": "
    | none => ""
  place ++ f.reason

/-- What is in sight: a value, the locals that a block sets, and the names it passes. -/
structure Scope where
  base : Json
  locals : List (String × Json)
  names : List (String × Json)

/-- The bindings of a template and the scopes in sight, the innermost one first. -/
structure Sight where
  root : Json
  scopes : List Scope

def Sight.of (bindings : Json) : Sight := ⟨bindings, [⟨bindings, [], []⟩]⟩

def Sight.inner (s : Sight) (scope : Scope) : Sight := { s with scopes := scope :: s.scopes }

/-- An index: decimal digits, after a plus sign if there is one. -/
def index? (name : String) : Option Nat :=
  let cs := match name.toList with
    | '+' :: rest => rest
    | cs => cs
  if cs.isEmpty || !cs.all Char.isDigit then none
  else
    let n := Decimal.digitsValue cs
    if n < 2 ^ (64 : Nat) then some n else none

/-- One step from a value; what is not there is missing, and only an index leads into a list. -/
def stepInto (value : Option Json) (name : String) : Except Failure (Option Json) :=
  match value with
  | some (.list items) =>
    match index? name with
    | some i => .ok items[i]?
    | none => fail ("Cannot access array/vector with string index, " ++ name)
  | some (.record fields) => .ok (fields.lookup name)
  | _ => .ok none

def follow (value : Json) (names : List String) : Except Failure (Option Json) :=
  names.foldlM stepInto (some value)

def Sight.passed? (s : Sight) (name : String) : Option Json :=
  s.scopes.findSome? fun scope => scope.names.lookup name

def Sight.base (s : Sight) : Json := (s.scopes.head?.map (·.base)).getD s.root

def Sight.find (s : Sight) : Reference → Except Failure (Option Json)
  | .variable up name => .ok ((s.scopes[up]?).bind fun scope => scope.locals.lookup name)
  | .way true _ names => follow s.root names
  | .way false up names =>
    match names.head?.bind s.passed? with
    | some value => follow value (names.drop 1)
    | none => follow ((s.scopes[up]?.map (·.base)).getD s.base) names

/-- A helper that computes a value from its arguments: its name where an argument is missing, the
names of its parameters, and the value. -/
structure Function where
  name : String
  parameters : List String
  value : List Json → Json

/-- The helpers that compute a value from one or two arguments. -/
def function? (name : String) : Option Function :=
  let one (given : String) (parameter : String) (f : Json → Json) : Option Function :=
    some ⟨given, [parameter], fun args => f (args.getD 0 .null)⟩
  let two (f : Json → Json → Bool) : Option Function :=
    some ⟨name, ["x", "y"], fun args => .bool (f (args.getD 0 .null) (args.getD 1 .null))⟩
  let ordered (f : Ordering → Bool) : Option Function :=
    two fun a b => ((order? a b).map f).getD false
  match name with
  | "json" => one "to_json" "v" fun v => .text v.compact
  | "defined" => one "is_defined" "v" fun v => .bool !(v matches .null)
  | "not" => one "not" "x" fun v => .bool (!isTrue false v)
  | "len" => one "len" "x" fun v => .integer (size v)
  | "eq" => two Json.same
  | "ne" => two fun a b => !Json.same a b
  | "gt" => ordered (· == .gt)
  | "gte" => ordered (· != .lt)
  | "lt" => ordered (· == .lt)
  | "lte" => ordered (· != .gt)
  | "and" => two fun a b => isTrue false a && isTrue false b
  | "or" => two fun a b => isTrue false a || isTrue false b
  | _ => none

/-- The helpers that choose or repeat the body of a block. -/
def isControl (name : String) : Bool :=
  ["if", "unless", "each", "with", "raw", "log"].contains name

def isHelper (name : String) : Bool :=
  (function? name).isSome || isControl name || name = "lookup"

def missingIndex {α : Type} (name : String) (index : Nat) : Except Failure α :=
  fail ("Helper/Decorator " ++ name ++ " param at index " ++ toString index ++
    " required but not found")

def missingName {α : Type} (name parameter : String) : Except Failure α :=
  fail ("Helper/Decorator " ++ name ++ " param with name " ++ parameter ++
    " required but not found")

def unknownHelper {α : Type} (name : String) : Except Failure α :=
  fail ("Helper not found " ++ name)

/-- An entry of a list or record by another value. -/
def lookupIn (args : List (Option Json)) : Except Failure (Option Json) :=
  match args with
  | [] => missingIndex "lookup" 0
  | [_] => missingIndex "lookup" 1
  | collection :: key :: _ =>
    match collection, key with
    | some (.list items), some (.integer i) => .ok (if 0 ≤ i then items[i.toNat]? else none)
    | some (.record fields), some (.text name) => .ok (fields.lookup name)
    | _, _ => .ok none

/-- The value of a helper that computes one. -/
def compute (name : String) (args : List (Option Json)) : Except Failure (Option Json) :=
  if name = "lookup" then lookupIn args
  else
    match function? name with
    | none => unknownHelper name
    | some f =>
      match f.parameters[args.length]? with
      | some parameter => missingName f.name parameter
      | none => .ok (some (f.value (args.map (·.getD .null))))

/-- What a control helper needs before it looks at its body: its argument. -/
def controlled (name : String) (args : List (Option Json)) : Except Failure (Option Json) :=
  match args with
  | arg :: _ => .ok arg
  | [] => if name = "raw" || name = "log" then .ok none else missingIndex (if name = "unless" then "if" else name) 0

mutual

def evaluate (s : Sight) : Argument → Except Failure (Option Json)
  | .literal value => .ok (some value)
  | .reference target => s.find target
  | .call name args options => do
    let values ← evaluateAll s args
    let _ ← evaluateOptions s options
    if isControl name then
      let _ ← controlled name values
      .ok (some (.text ""))
    else compute name values

def evaluateAll (s : Sight) : List Argument → Except Failure (List (Option Json))
  | [] => .ok []
  | a :: rest => do
    let value ← evaluate s a
    return value :: (← evaluateAll s rest)

def evaluateOptions (s : Sight) :
    List (String × Argument) → Except Failure (List (String × Option Json))
  | [] => .ok []
  | (name, a) :: rest => do
    let value ← evaluate s a
    return (name, value) :: (← evaluateOptions s rest)

end

def shownValue (value : Option Json) : List Char := (value.map shown).getD []

def itemScope (names : List String) (count index : Nat) (item : Json) : Scope :=
  { base := item
    locals := [("first", .bool (index == 0)), ("last", .bool (index + 1 == count)),
      ("index", .integer index)]
    names := names.zip [item, .integer index] }

def fieldScope (names : List String) (count index : Nat) (field : String × Json) : Scope :=
  { base := field.2
    locals := [("first", .bool (index == 0)), ("last", .bool (index + 1 == count)),
      ("key", .text field.1)]
    names := names.zip [field.2, .text field.1] }

/-- The scopes that a value gives to a repeated body, if it is a collection. -/
def scopes? (names : List String) : Option Json → Option (List Scope)
  | some (.list items) => some (items.zipIdx.map fun (v, i) => itemScope names items.length i v)
  | some (.record fields) =>
    some (fields.zipIdx.map fun (f, i) => fieldScope names fields.length i f)
  | _ => none

/-- How often and in which scopes a block shows its body, or that it shows its other part. -/
inductive Plan where
  | body (sights : List Sight)
  | otherwise

def plan (s : Sight) (head : Head) (values : List (Option Json))
    (options : List (String × Option Json)) (hasOther : Bool) : Except Failure Plan := do
  let value ← controlled head.name values
  let zero := options.reverse.lookup "includeZero" matches some (some (.bool true))
  let holds := isTrue zero (value.getD .null)
  match head.name with
  | "if" => return if holds then .body [s] else .otherwise
  | "unless" => return if holds then .otherwise else .body [s]
  | "with" =>
    let base := value.getD .null
    return if isTrue false base then
      .body [s.inner { base, locals := [], names := head.names.zip [base] }] else .otherwise
  | "each" =>
    match scopes? head.names value with
    | some scopes =>
      return if scopes.isEmpty && hasOther then .otherwise else .body (scopes.map s.inner)
    | none => return .otherwise
  | "raw" => return .body [s]
  | _ => return .body []

mutual

/-- The text of an element; `bring` gives the text of another template. -/
def renderElement (bring : Head → Sight → Except Failure (List Char)) (s : Sight) :
    Element → Except Failure (List Char)
  | .text chars => .ok chars
  | .value position name target => placed position do
    if isControl name then
      let _ ← controlled name []
      return []
    else if isHelper name then return shownValue (← compute name [])
    else return shownValue (← s.find target)
  | .result position call => placed position do
    let value ← evaluate s call
    let name := String.ofList (shownValue value)
    if isControl name then
      let _ ← controlled name []
      return []
    else if isHelper name then return shownValue (← compute name [])
    else return shownValue value
  | .call position head => placed position do
    let values ← evaluateAll s head.args
    let _ ← evaluateOptions s head.options
    if isControl head.name then
      let _ ← controlled head.name values
      return []
    else return shownValue (← compute head.name values)
  | .block position head body otherwise => placed position do
    let values ← evaluateAll s head.args
    let options ← evaluateOptions s head.options
    if isControl head.name then
      match ← plan s head values options otherwise.isSome with
      | .body sights =>
        let parts ← sights.mapM fun s => renderAll bring s body
        return parts.flatten
      | .otherwise =>
        match otherwise with
        | some other => renderAll bring s other
        | none => return []
    else return shownValue (← compute head.name values)
  | .inclusion position head => placed position (bring head s)

def renderAll (bring : Head → Sight → Except Failure (List Char)) (s : Sight) :
    List Element → Except Failure (List Char)
  | [] => .ok []
  | e :: rest => do
    let text ← renderElement bring s e
    return text ++ (← renderAll bring s rest)

end

end Stevedore.Template
