/-! The options, operands and subcommands that may stand on a command line. -/
namespace Stevedore.CommandLine

inductive Takes where
  | nothing
  | text
  /-- A path, which may not be empty. -/
  | path
  deriving DecidableEq

structure Parameter where
  name : String
  letter : Option Char
  takes : Takes
  /-- The environment variable that stands in where the line gives no value. -/
  standIn : Option String
  deriving DecidableEq

inductive Level where
  | program
  | render
  | connect
  | config
  | summary
  | validate
  | generate
  deriving DecidableEq

def configOption : Parameter :=
  { name := "config", letter := some 'c', takes := .path,
    standIn := some "FLEETYARD_CONFIG_PATH" }

def logLevelOption : Parameter :=
  { name := "log-level", letter := none, takes := .text,
    standIn := some "FLEETYARD_LOG_LEVEL" }

def serviceOption : Parameter :=
  { name := "service", letter := some 's', takes := .text, standIn := none }

def outputOption : Parameter :=
  { name := "output", letter := some 'o', takes := .path, standIn := none }

def templatesOption : Parameter :=
  { name := "templates", letter := none, takes := .path, standIn := none }

def kubectlOption : Parameter :=
  { name := "kubectl", letter := none, takes := .text, standIn := some "FLEETYARD_KUBECTL" }

def pathsFlag : Parameter :=
  { name := "paths", letter := none, takes := .nothing, standIn := none }

def fileOperand : Parameter :=
  { name := "FILE", letter := none, takes := .path, standIn := none }

namespace Level

def title : Level → String
  | .program => "fleetyard"
  | .render => "fleetyard-render"
  | .connect => "fleetyard-connect"
  | .config => "fleetyard-config"
  | .summary => "fleetyard-config-show"
  | .validate => "fleetyard-config-validate"
  | .generate => "fleetyard-config-generate"

def ownOptions : Level → List Parameter
  | .render => [serviceOption, outputOption, templatesOption]
  | .connect => [serviceOption, kubectlOption]
  | .summary => [pathsFlag]
  | .generate => [outputOption]
  | _ => []

/-- The deployment file and the log level may be given at every level. -/
def options (l : Level) : List Parameter := configOption :: logLevelOption :: l.ownOptions

def operand? : Level → Option Parameter
  | .validate => some fileOperand
  | _ => none

def subcommands : Level → List (String × Level)
  | .program => [("render", .render), ("connect", .connect), ("config", .config)]
  | .config => [("show", .summary), ("validate", .validate), ("generate", .generate)]
  | _ => []

def optionNamed? (l : Level) (name : String) : Option Parameter :=
  l.options.find? fun p => p.name = name

def optionLettered? (l : Level) (letter : Char) : Option Parameter :=
  l.options.find? fun p => p.letter = some letter

end Level
end Stevedore.CommandLine
