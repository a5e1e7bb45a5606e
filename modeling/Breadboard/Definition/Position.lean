import Breadboard.Definition.Lexeme

/-!
# Positions

A place in a text: the line feeds before it and the characters since the last one. Both
count from zero, and characters are counted, not bytes.
-/
namespace Breadboard.Definition

structure Position where
  line : Nat := 0
  column : Nat := 0
  deriving DecidableEq, Repr

namespace Position

/-- The place after one more character. -/
def next (p : Position) (c : Char) : Position :=
  if c = '\n' then { line := p.line + 1 } else { p with column := p.column + 1 }

/-- The place after a stretch of text. -/
def after (p : Position) (cs : List Char) : Position := cs.foldl next p

theorem after_append (p : Position) (cs ds : List Char) :
    p.after (cs ++ ds) = (p.after cs).after ds := by
  simp [after]

end Position

/-- The lexemes of a text, each with the place where it begins. -/
def placed (p : Position) : List Lexeme → List (Position × Lexeme)
  | [] => []
  | l :: rest => (p, l) :: placed (p.after l.chars) rest

end Breadboard.Definition
