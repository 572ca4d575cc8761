import Stevedore.Decimal.Layout
import Stevedore.Json.Basic
import Stevedore.Text.Basic

/-! The compact text of a JSON value. -/
namespace Stevedore.Json
open Text

/-- Quotes, backslashes and controls are escaped, and nothing else. -/
def escapedChar (c : Char) : List Char :=
  if c = '"' then ['\\', '"']
  else if c = '\\' then ['\\', '\\']
  else if 0x20 ≤ c.toNat then [c]
  else if c = '\n' then ['\\', 'n']
  else if c = '\r' then ['\\', 'r']
  else if c = '\t' then ['\\', 't']
  else if c.toNat = 8 then ['\\', 'b']
  else if c.toNat = 12 then ['\\', 'f']
  else '\\' :: 'u' :: hexadecimal 4 c.toNat

def writeText (s : String) : List Char :=
  '"' :: s.toList.flatMap escapedChar ++ ['"']

def writeInteger (n : Int) : List Char :=
  if n < 0 then '-' :: Nat.toDigits 10 n.natAbs else Nat.toDigits 10 n.natAbs

def joinWith (separator : List Char) : List (List Char) → List Char
  | [] => []
  | [piece] => piece
  | piece :: rest => piece ++ separator ++ joinWith separator rest

mutual

def write : Json → List Char
  | .null => ['n', 'u', 'l', 'l']
  | .bool true => ['t', 'r', 'u', 'e']
  | .bool false => ['f', 'a', 'l', 's', 'e']
  | .integer n => writeInteger n
  | .float x => Decimal.Layout.json.write x
  | .text s => writeText s
  | .list items => '[' :: joinWith [','] (writeItems items) ++ [']']
  | .record fields => '\x7b' :: joinWith [','] (writeFields fields) ++ ['\x7d']

def writeItems : List Json → List (List Char)
  | [] => []
  | item :: rest => write item :: writeItems rest

def writeFields : List (String × Json) → List (List Char)
  | [] => []
  | (name, value) :: rest => (writeText name ++ ':' :: write value) :: writeFields rest

end

def compact (j : Json) : String := String.ofList j.write

end Stevedore.Json
