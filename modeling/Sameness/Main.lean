import Sameness.Demonstration

/-!
# Command line

Prints the demonstrations named on the command line, one line at a time.
-/

/-- Print the named demonstrations in order; a name that is not known is reported on standard
error and makes the exit code one. -/
def main (names : List String) : IO UInt32 := do
  let mut code := 0
  for name in names do
    match Sameness.Demonstration.find? name with
    | some lines => lines.forM IO.println
    | none =>
      IO.eprintln s!"no demonstration is called {name}"
      code := 1
  return code
