/-! Filters for log lines: directives between commas, each with a level, a target or both. -/
namespace Stevedore.LogFilter

def levels : List String := ["trace", "debug", "info", "warn", "error", "off"]

def isLevel (cs : List Char) : Bool :=
  levels.contains (String.ofList (cs.map Char.toLower)) ||
    match cs with
    | [c] => '0' ≤ c && c ≤ '5'
    | _ => false

def isTargetChar (c : Char) : Bool :=
  c.isAlphanum || c = '_' || c = ':' || c = '-' || 0x80 ≤ c.toNat

/-- What follows a target, or a span in brackets. -/
def afterSelector? (cs : List Char) : Option (List Char) :=
  match cs with
  | [] => none
  | '[' :: rest =>
    match rest.dropWhile (· != ']') with
    | [] => none
    | _ :: after => some after
  | c :: rest => if isTargetChar c then some (rest.dropWhile isTargetChar) else none

/-- A directive may end after its selectors, or with a level that may be left out. -/
def isEnding : List Char → Bool
  | [] => true
  | '=' :: level => level.isEmpty || isLevel level
  | _ => false

/-- A level alone, or one or two selectors. -/
def isDirective (cs : List Char) : Bool :=
  isLevel cs ||
    match afterSelector? cs with
    | none => false
    | some rest => isEnding rest || ((afterSelector? rest).map isEnding).getD false

def isValid (filter : String) : Bool :=
  (filter.splitOn ",").all fun d => d.isEmpty || isDirective d.toList

/-- A filter of the user's surroundings counts if it is valid, and else the level does. -/
def canBeMade (surrounding : Option String) (level : String) : Bool :=
  surrounding.any isValid || isValid level

end Stevedore.LogFilter
