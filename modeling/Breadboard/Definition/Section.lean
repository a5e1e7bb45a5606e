/-!
# Sections

A definition has three sections, which come in a fixed order.
-/
namespace Breadboard.Definition

inductive Section where
  | devices
  | conns
  | monit
  deriving DecidableEq, Repr

namespace Section

/-- The sections in the order in which they have to come. -/
def all : List Section := [devices, conns, monit]

/-- The word between the square brackets of the header. -/
def heading : Section → String
  | devices => "devices"
  | conns => "conns"
  | monit => "monit"

/-- The section with a given heading. -/
def ofHeading? (word : String) : Option Section := all.find? (·.heading == word)

theorem heading_of_ofHeading? {word : String} {s : Section} (h : ofHeading? word = some s) :
    s.heading = word := by
  simpa using List.find?_some h

theorem ofHeading?_heading (s : Section) : ofHeading? s.heading = some s := by
  cases s <;> decide

def header (s : Section) : String := s!"[{s.heading}]"

end Section

end Breadboard.Definition
