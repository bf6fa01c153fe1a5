/-!
# Report — an error and what it came from

An error that ends the program is reported with its message and, below it, the chain of its causes,
outermost first.  `render` lays a report out for the standard error stream: causes are indented, and
numbered when there is more than one.
-/

namespace TrackServer

/-- A message and the chain of causes below it. -/
structure Report where
  message : String
  causes : List String
  deriving DecidableEq, Repr

namespace Report

/-- Put a message above a report. -/
def under (report : Report) (message : String) : Report :=
  ⟨message, report.message :: report.causes⟩

/-- One cause behind its mark; its further lines are indented as far. -/
def renderCause (mark cause : String) : String :=
  mark ++ ("\n" ++ mark.map fun _ => ' ').intercalate (cause.splitOn "\n")

/-- The causes in order, from a number on. -/
def renderCauses (number : Nat) : List String → String
  | [] => ""
  | cause :: more =>
    "\n" ++ renderCause ("    " ++ toString number ++ ": ") cause ++ renderCauses (number + 1) more

/-- **A report as it is printed.** -/
def render (report : Report) : String :=
  "Error: " ++ report.message ++
    (match report.causes with
    | [] => ""
    | [cause] => "\n\nCaused by:\n" ++ renderCause "    " cause
    | causes => "\n\nCaused by:" ++ renderCauses 0 causes) ++ "\n"

end Report

end TrackServer
