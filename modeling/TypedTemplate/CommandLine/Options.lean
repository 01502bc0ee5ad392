import TypedTemplate.Number.Reading
import TypedTemplate.Value

/-!
The options of the command line. Words are read from left to right, so the first
mistake is the one that is reported, and a request for help before it is granted.
-/
namespace TypedTemplate.CommandLine

structure Options where
  /-- The file with the template, instead of the standard input. -/
  input : Option String := none
  context : List (String × Value) := []
  config : Option String := none
  check : Bool := false
  outline : Bool := false
  documentation : Bool := false
  verbosity : Nat := 0

inductive UsageError where
  | unknown (word : String)
  | missingValue (option : String)
  | unexpectedValue (option : String)
  | repeated (option : String)
  | emptyValue (option : String)
  | noAssignment (word : String)
  deriving DecidableEq, Repr

def UsageError.message : UsageError → String
  | unknown word => s!"unexpected argument '{word}' found"
  | missingValue option => s!"a value is required for '{option}' but none was supplied"
  | unexpectedValue option => s!"unexpected value for '{option}' found; no more were expected"
  | repeated option => s!"the argument '{option}' cannot be used multiple times"
  | emptyValue option => s!"a value is required for '{option}' but none was supplied"
  | noAssignment word =>
    s!"invalid value '{word}' for '--context <KEY=VALUE>': expected KEY=VALUE, got `{word}`"

/-- Why reading the options ended early. -/
inductive Stop where
  | help
  | usage (cause : UsageError)
  deriving DecidableEq, Repr

/-- The value that a word on the command line stands for: a condition or a finite
number if it reads as one, else a text. -/
def contextValue (word : String) : Value :=
  if word = "true" then .bool true
  else if word = "false" then .bool false
  else
    match readNumber? word with
    | some x => if x.isFinite then .number x else .text word
    | none => .text word

/-- The key and the value on the two sides of the first equals sign. -/
def contextEntry? (word : String) : Option (String × Value) :=
  let cs := word.toList
  match cs.dropWhile (· != '=') with
  | [] => none
  | _ :: value =>
    some (String.ofList (cs.takeWhile (· != '=')), contextValue (String.ofList value))

/-- An option that takes a value. -/
inductive Valued where
  | context
  | config
  deriving DecidableEq, Repr

/-- An option that takes none. -/
inductive Flag where
  | check
  | outline
  | documentation
  | verbose
  | help
  deriving DecidableEq, Repr

def Valued.spelling : Valued → String
  | context => "--context <KEY=VALUE>"
  | config => "--config <CONFIG>"

def Flag.spelling : Flag → String
  | check => "--check"
  | outline => "--ast"
  | documentation => "--dump-docs"
  | verbose => "--verbose"
  | help => "--help"

/-- What an option is called for. -/
inductive Kin where
  | valued (option : Valued)
  | flag (option : Flag)

def long? : String → Option Kin
  | "context" => some (.valued .context)
  | "config" => some (.valued .config)
  | "check" => some (.flag .check)
  | "ast" => some (.flag .outline)
  | "dump-docs" => some (.flag .documentation)
  | "verbose" => some (.flag .verbose)
  | "help" => some (.flag .help)
  | _ => none

def short? : Char → Option Kin
  | 'c' => some (.valued .context)
  | 'C' => some (.valued .config)
  | 'v' => some (.flag .verbose)
  | 'h' => some (.flag .help)
  | _ => none

namespace Options

def refuse {α : Type} (cause : UsageError) : Except Stop α := .error (.usage cause)

def setFlag (options : Options) (flag : Flag) : Except Stop Options :=
  match flag with
  | .check =>
    if options.check then refuse (.repeated flag.spelling) else .ok { options with check := true }
  | .outline =>
    if options.outline then refuse (.repeated flag.spelling)
    else .ok { options with outline := true }
  | .documentation =>
    if options.documentation then refuse (.repeated flag.spelling)
    else .ok { options with documentation := true }
  | .verbose => .ok { options with verbosity := options.verbosity + 1 }
  | .help => .error .help

def setValue (options : Options) (option : Valued) (word : String) : Except Stop Options :=
  match option with
  | .context =>
    match contextEntry? word with
    | none => refuse (.noAssignment word)
    | some entry => .ok { options with context := options.context ++ [entry] }
  | .config =>
    if options.config.isSome then refuse (.repeated option.spelling)
    else if word.isEmpty then refuse (.emptyValue option.spelling)
    else .ok { options with config := some word }

/-- A word that is no option is the file with the template. -/
def setInput (options : Options) (word : String) : Except Stop Options :=
  if options.input.isSome then refuse (.unknown word)
  else if word.isEmpty then refuse (.emptyValue "[INPUT]")
  else .ok { options with input := some word }

/-- What is left to do after a word: nothing, or to take the next word as a value. -/
abbrev Awaiting := Option Valued

/-- Reads the letters of a word behind its dash. A letter that takes a value takes the
rest of the word, without an equals sign in front of it. -/
def readLetters (options : Options) : List Char → Except Stop (Options × Awaiting)
  | [] => .ok (options, none)
  | letter :: rest =>
    match short? letter with
    | none => refuse (.unknown ("-" ++ String.singleton letter))
    | some (.flag flag) =>
      match options.setFlag flag with
      | .error stop => .error stop
      | .ok options => readLetters options rest
    | some (.valued option) =>
      match rest with
      | [] => .ok (options, some option)
      | '=' :: value => (options.setValue option (String.ofList value)).map (·, none)
      | value => (options.setValue option (String.ofList value)).map (·, none)

/-- Reads a word behind its two dashes. -/
def readLong (options : Options) (word : List Char) : Except Stop (Options × Awaiting) :=
  let name := String.ofList (word.takeWhile (· != '='))
  let value? := match word.dropWhile (· != '=') with
    | [] => none
    | _ :: value => some (String.ofList value)
  match long? name, value? with
  | none, _ => refuse (.unknown ("--" ++ name))
  | some (.flag flag), none => (options.setFlag flag).map (·, none)
  | some (.flag flag), some _ => refuse (.unexpectedValue flag.spelling)
  | some (.valued option), none => .ok (options, some option)
  | some (.valued option), some value => (options.setValue option value).map (·, none)

/-- Reads words behind two dashes that stand alone: none of them is an option. -/
def readInputs (options : Options) (words : List String) : Except Stop Options :=
  words.foldlM setInput options

/-- Reads the words of a command line. A single dash is no option. -/
def readWords (options : Options) (awaiting : Awaiting) : List String → Except Stop Options
  | [] =>
    match awaiting with
    | none => .ok options
    | some option => refuse (.missingValue option.spelling)
  | word :: words =>
    match awaiting, word.toList with
    | some option, '-' :: _ :: _ => refuse (.missingValue option.spelling)
    | some option, _ => do readWords (← options.setValue option word) none words
    | none, ['-', '-'] => options.readInputs words
    | none, '-' :: '-' :: long => do
      let (options, awaiting) ← options.readLong long
      readWords options awaiting words
    | none, '-' :: letter :: letters => do
      let (options, awaiting) ← options.readLetters (letter :: letters)
      readWords options awaiting words
    | none, _ => do readWords (← options.setInput word) none words

/-- The options that the words of a command line give. -/
def parse (words : List String) : Except Stop Options := readWords {} none words

end Options

end TypedTemplate.CommandLine
