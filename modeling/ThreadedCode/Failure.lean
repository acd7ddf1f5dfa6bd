import ThreadedCode.Corruption
import ThreadedCode.Text.Page

/-!
# Failures

The reasons for which generated code cannot be written at all.
-/

namespace ThreadedCode

/-- Why generated code could not be written. -/
inductive Failure where
  /-- A name in the settings is not the identifier it must be. -/
  | invalidIdentifier (name : String)
  /-- The program is corrupt. -/
  | corrupt (corruption : Corruption)
  /-- The sink takes no more characters. -/
  | sinkFull
  /-- A page was misused. -/
  | page (fault : Page.Fault)
  /-- Some declared block has no body, or some body no declaration. -/
  | bodyCount (declared written : Nat)
  deriving DecidableEq, Repr

end ThreadedCode
