import Breadboard.Text.Width

/-!
# Colour escapes

An escape of the form `ESC [ ... m` changes the colour of what follows it. The characters
behind its `ESC` are not drawn, and the table counts none of them, whatever width they have.
-/
namespace Breadboard.Text

def isControl (c : Char) : Bool := Ranges.covers [(0x0, 0x1F), (0x7F, 0x9F)] c.toNat

/-- Whether a character is drawn when it stands alone. -/
def isDrawn (c : Char) : Bool := !isControl c && charWidth c != 0

/-- How far a colour escape has been read. -/
inductive Escape where
  | outside
  | started
  | inside
  deriving DecidableEq, Repr

/-- The drawn characters of colour escapes. -/
def escapeLength : Escape → List Char → Nat
  | _, [] => 0
  | .outside, c :: rest => escapeLength (if c = '\x1b' then .started else .outside) rest
  | .started, c :: rest =>
    if c = '[' then escapeLength .inside rest + 1 else escapeLength .outside rest
  | .inside, c :: rest =>
    escapeLength (if c = 'm' then .outside else .inside) rest + if isDrawn c then 1 else 0

/-- The columns that a text takes when its colour escapes are not drawn. -/
def visibleWidth (text : List Char) : Nat := width text - escapeLength .outside text

end Breadboard.Text
