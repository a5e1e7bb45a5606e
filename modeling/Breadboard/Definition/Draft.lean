import Breadboard.Definition.Cursor
import Breadboard.Probe.Basic

/-!
# Drafts

What has been made of a definition so far: the circuit and the probes with its devices
added, the devices it has declared, and the issues found in it.
-/
namespace Breadboard.Definition

structure Draft where
  circuit : Circuit
  probes : Probes
  /-- The devices that this definition has declared. -/
  declared : List NameId := []
  /-- The issues found, in the order in which they were found. -/
  issues : List Issue := []

namespace Draft

def report (d : Draft) (i : Issue) : Draft := { d with issues := d.issues ++ [i] }

/-- Ends a line at its semicolon. Where the semicolon is missing at the end of a source line,
reading goes on with the next source line; elsewhere the rest of the line is skipped. -/
def endLine (d : Draft) (c : Cursor) : Cursor × Draft :=
  if c.isAt .semicolon then (c.advance, d)
  else if c.previous.position.line < c.current.position.line then
    (c, d.report ((Fault.missingSemicolon c.previous).on c.previous))
  else (c.skipLine, d.report ((Fault.expectedSemicolon c.current).on c.current))

/-- Gives a line up because of an issue, and skips the rest of it. -/
def abandonLine (d : Draft) (c : Cursor) (i : Issue) : Cursor × Draft :=
  (c.skipLine, d.report i)

theorem suffix_endLine (d : Draft) (c : Cursor) : (d.endLine c).1.ahead <:+ c.ahead := by
  unfold endLine
  split
  · exact c.suffix_advance
  split
  · exact List.suffix_rfl
  · exact c.suffix_skipLine

end Draft

end Breadboard.Definition
