import TypedTemplate.CommandLine.Options
import TypedTemplate.Config.Reader
import TypedTemplate.Documentation
import TypedTemplate.Engine
import TypedTemplate.Template.Outline
import TypedTemplate.Template.Report

/-!
The command line. A run reads a template from a file or from the standard input and
writes its text for the values given as options. What a run needs from outside is
passed in, so that it can be followed without an operating system.
-/
namespace TypedTemplate.CommandLine

/-- What a run can ask of its surroundings. -/
structure Shell (m : Type → Type) where
  /-- Whether somebody types the standard input. -/
  interactive : Bool := false
  stdin : m String
  /-- The content of a file, or why it cannot be read. -/
  load : String → m (Except String String)

/-- What a run leaves: its exit code and its output. -/
structure Outcome where
  code : Nat := 0
  stdout : String := ""
  stderr : String := ""
  deriving DecidableEq, Repr

def helpText : String :=
  "\n".intercalate [
    "Render templates by resolving placeholder chains against typed mappings",
    "",
    "Usage: infotpl [OPTIONS] [INPUT]",
    "",
    "Arguments:",
    "  [INPUT]  Template file (reads from stdin if not provided)",
    "",
    "Options:",
    "  -c, --context <KEY=VALUE>  Named context value, e.g. `name=steve` or `count=3`",
    "  -C, --config <CONFIG>      Render configuration file (TOML format)",
    "      --check                Only parse the template and report syntax errors",
    "      --ast                  Print the parsed template",
    "      --dump-docs            Print the registered kinds and mappings as JSON",
    "  -v, --verbose...           Increase log verbosity (-v debug, -vv trace)",
    "  -h, --help                 Print help",
    ""]

def introText : String :=
  "\n".intercalate [
    "infotpl - type-directed template rendering",
    "",
    "USAGE:",
    "    infotpl [OPTIONS] [FILE]",
    "    echo '<template>' | infotpl -c key=value",
    "",
    "OPTIONS:",
    "    -c, --context     Named context value, KEY=VALUE (repeatable)",
    "    -C, --config      Render configuration (TOML file)",
    "    --check           Only parse the template",
    "    --ast             Print the parsed template",
    "    --dump-docs       Print registered kinds and mappings as JSON",
    "    -v, --verbose     Increase log verbosity",
    "    -h, --help        Print help",
    "",
    "QUICK START:",
    "    echo 'Hello \x7bname upper\x7d, \x7bn add(2)\x7d' | infotpl -c name=steve -c n=1",
    "",
    "Placeholders name a chain of mappings applied to a context value;",
    "alternatives are separated by `|`. Literal braces are written `\x7b\x7b` and `\x7d\x7d`.",
    ""]

/-- A run that has failed. -/
def failed (code : Nat) (stderr : String) : Outcome := { code := code, stderr := stderr }

/-- The text without one line end at its end: editors add it, it is not meant. -/
def dropLineEnd (source : String) : String :=
  let cs := source.toList
  if cs.getLast? = some '\n' then String.ofList cs.dropLast else source

/-- Reads the settings: the default ones if no file is named. -/
def loadConfig {m : Type → Type} [Monad m] (shell : Shell m) :
    Option String → m (Except Outcome Config)
  | none => return .ok {}
  | some path => do
    let refuse (why : String) : Except Outcome Config :=
      .error (failed 1 s!"Error loading config '{path}': {why}\n")
    match ← shell.load path with
    | .error why => return refuse why
    | .ok content =>
      match Config.parse? content with
      | none => return refuse "Failed to parse config TOML"
      | some config => return .ok config

/-- Reads the template, with the name under which errors refer to it. -/
def loadTemplate {m : Type → Type} [Monad m] (shell : Shell m) :
    Option String → m (Except Outcome (String × String))
  | none => return .ok (dropLineEnd (← shell.stdin), "<stdin>")
  | some path => do
    match ← shell.load path with
    | .error why => return .error (failed 1 s!"Error reading file '{path}': {why}\n")
    | .ok content => return .ok (dropLineEnd content, path)

/-- Parses a template without rendering it; its outline is printed if asked for. -/
def inspect (outline : Bool) (source file : String) : Outcome :=
  match Template.parse source with
  | .error cause => failed 1 (cause.diagnostic.colouredReport source file)
  | .ok template => { stdout := if outline then template.outline.pretty 0 ++ "\n" else "" }

/-- Renders a template for the values of the options. -/
def render (indices : Indices Unit) (store : Store Unit) (config : Config)
    (context : List (String × Value)) (source file : String) : Outcome :=
  let engine : Engine Unit := { indices := indices, config := config }
  let request : Request := { text := source, subject := .named context }
  match (engine.renderOnce store { state := () } request).1 with
  | .ok text => { stdout := text ++ "\n" }
  | .error (.parse cause) => failed 1 (cause.diagnostic.colouredReport source file)
  | .error cause => failed 1 ("Error: " ++ cause.message ++ "\n")

/-- The lines that verbose runs start with, one for each mapping there is. -/
def registrationLog {W : Type} (layers : List (Layer W)) : String :=
  String.join ((layers.flatMap fun layer => layer.mappings.items).map fun mapping =>
    s!"[DEBUG] registered mapping {mapping.name.toString} from {mapping.source.label} "
      ++ s!"to {mapping.target.label}\n")

/-- Renders, parses or documents, once the options are known. -/
def perform {m : Type → Type} [Monad m] (shell : Shell m) (options : Options)
    (indices : Indices Unit) (store : Store Unit) : m Outcome := do
  if options.documentation then
    let documentation := Documentation.ofLayers (indices.layers.map store.layer)
    return { stdout := documentation.toJson.pretty 0 ++ "\n" }
  else if options.input.isNone && shell.interactive then
    return { stdout := introText }
  else
    match ← loadConfig shell options.config with
    | .error outcome => return outcome
    | .ok config =>
      match ← loadTemplate shell options.input with
      | .error outcome => return outcome
      | .ok (source, file) =>
        if options.check || options.outline then return inspect options.outline source file
        else return render indices store config options.context source file

/-- One run with the words of a command line. -/
def run {m : Type → Type} [Monad m] (shell : Shell m) (words : List String) : m Outcome := do
  match Options.parse words with
  | .error .help => return { stdout := helpText }
  | .error (.usage cause) => return failed 2 s!"error: {cause.message}\n"
  | .ok options =>
    let (extension, store) := Store.empty.add Layer.empty
    match Indices.withCatalogue store extension with
    | .error cause => return failed 1 s!"Error registering defaults: {cause.message}\n"
    | .ok (indices, store) =>
      let outcome ← perform shell options indices store
      if options.verbosity = 0 then return outcome
      else
        let log := registrationLog (indices.layers.map store.layer)
        return { outcome with stderr := log ++ outcome.stderr }

end TypedTemplate.CommandLine
