import Stevedore.File.Tree
import Stevedore.Manifest.Fragment
import Stevedore.Template.Parser
import Stevedore.Template.Render

/-! The templates of all fragments, of which files may replace some, and their rendering. -/
namespace Stevedore
open Manifest

inductive TemplateError where
  | invalid (template : String)
  | failed (template reason : String)
  deriving DecidableEq

def TemplateError.message : TemplateError → String
  | .invalid template => "Invalid template " ++ template
  | .failed template reason => "Failed to render template " ++ template ++ ": " ++ reason

structure TemplateSet where
  parsed : List (Fragment × List Template.Element)

namespace TemplateSet

def parse? (source : List Char) : Option (List Template.Element) :=
  Template.parse? (Text.dropEnd Text.isBlank source)

def embedded : TemplateSet :=
  ⟨Fragment.all.map fun f => (f, (parse? f.source).getD [])⟩

def elements (set : TemplateSet) (f : Fragment) : List Template.Element :=
  (set.parsed.lookup f).getD []

def replace (set : TemplateSet) (f : Fragment) (elements : List Template.Element) : TemplateSet :=
  ⟨(f, elements) :: set.parsed⟩

def overrideOne (tree : File.Tree) (directory : Path) (set : TemplateSet) (f : Fragment) :
    Except TemplateError TemplateSet :=
  let path := directory.join f.fileName
  if tree.isFile path then
    match tree.readText path with
    | .error _ => .error (.invalid f.fileName)
    | .ok source =>
      match parse? source.toList with
      | none => .error (.invalid f.fileName)
      | some elements => .ok (set.replace f elements)
  else .ok set

def withOverrides (tree : File.Tree) (directory : Path) : Except TemplateError TemplateSet :=
  Fragment.all.foldlM (overrideOne tree directory) embedded

/-- The bindings that an included template sees: an argument or what is in sight, with options. -/
def includedSight (s : Template.Sight) (head : Template.Head) :
    Except Template.Failure Template.Sight := do
  let values ← Template.evaluateAll s head.args
  let options ← Template.evaluateOptions s head.options
  let base := match values with
    | value :: _ => value.getD .null
    | [] => s.base
  let fields := match base with
    | .record fields => fields
    | _ => []
  let extra := options.map fun o => (o.1, o.2.getD .null)
  let base := if extra.isEmpty then base else Json.ofFields (fields ++ extra)
  return { root := s.root, scopes := [⟨base, [], []⟩] }

/-- The text of a fragment's template; inclusions may be nested `depth` deep. -/
def renderIn (set : TemplateSet) : Nat → Fragment → Template.Sight →
    Except Template.Failure (List Char)
  | 0, _, _ => Template.fail "Can not include current template in partial"
  | depth + 1, f, sight =>
    let bring (head : Template.Head) (s : Template.Sight) : Except Template.Failure (List Char) :=
      match Fragment.all.find? fun g => g.fileName = head.name with
      | none => Template.fail ("Partial not found " ++ head.name)
      | some g =>
        if g = f then Template.fail "Can not include current template in partial"
        else do renderIn set depth g (← includedSight s head)
    match Template.renderAll bring sight (set.elements f) with
    | .ok text => .ok text
    | .error e => .error { e with template := e.template.or (some f.fileName) }

def render (set : TemplateSet) (f : Fragment) (bindings : List (String × Json)) :
    Except TemplateError String :=
  match renderIn set 64 f (.of (Json.ofFields bindings)) with
  | .ok text => .ok (String.ofList text)
  | .error e => .error (.failed f.fileName e.message)

end TemplateSet
end Stevedore
