import TypedTemplate.Template.SyntaxError

/-!
A diagnostic drawn beside the line it is about, for texts of one line.
-/
namespace TypedTemplate.Diagnostic

def bar (n : Nat) : String := String.ofList (List.replicate n '─')

def blanks (n : Nat) : String := String.ofList (List.replicate n ' ')

/-- What is written at the mark: the message, and below it what was expected. -/
def label (d : Diagnostic) : String :=
  if d.expected.isEmpty then d.message
  else d.message ++ "\nExpected: " ++ ", ".intercalate d.expected

/-- The two rows under the source. The mark hangs from the middle of the span; an
empty span has a plain stroke. -/
def marks (d : Diagnostic) : String × String :=
  let start := d.span.start
  let stop := d.span.stop
  if stop ≤ start then (blanks start ++ "│ ", blanks start ++ "╰─ " ++ d.label)
  else
    let middle := (start + stop) / 2
    (blanks start ++ bar (middle - start) ++ "┬" ++ bar (stop - middle - 1) ++ "  ",
      blanks middle ++ "╰" ++ bar (stop - middle + 1) ++ " " ++ d.label)

/-- The line as it is shown, without the blanks at its end. -/
def dropTrailingBlanks (line : String) : String :=
  String.ofList (line.toList.reverse.dropWhile Char.isWhitespace).reverse

/-- A word in red, for terminals. -/
def red (word : String) : String := "\x1b[31m" ++ word ++ "\x1b[0m"

/-- The drawn diagnostic: the message behind a title, the name of the file with the
place, the source line, and the marks under it. -/
def draw (d : Diagnostic) (title source file : String) : String :=
  let (underline, hook) := d.marks
  "\n".intercalate [
    title ++ " " ++ d.message,
    s!"   ╭─[{file}:1:{d.span.start + 1}]",
    "   │",
    " 1 │ " ++ dropTrailingBlanks source,
    "   │ " ++ underline,
    "   │ " ++ hook,
    "───╯",
    ""]

def report (d : Diagnostic) (source file : String) : String := d.draw "Error:" source file

def colouredReport (d : Diagnostic) (source file : String) : String :=
  d.draw (red "Error:") source file

end TypedTemplate.Diagnostic
