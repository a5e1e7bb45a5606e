import Breadboard.Definition.Fault

/-!
# Cursors

A place among the tokens of a section. A cursor never moves past the token that ends its
section: an opening square bracket or the end of the file.

* `suffix_advance`, `suffix_skipLine`: a cursor only moves forward.
-/
namespace Breadboard.Definition

structure Cursor where
  /-- The token before the current one. -/
  previous : Token
  /-- The tokens from the current one to the end of the section. -/
  ahead : List Token
  /-- The token that ends the section. -/
  stop : Token

namespace Cursor

/-- The token to be read next. -/
def current (c : Cursor) : Token := c.ahead.headD c.stop

/-- The cursor behind the current token. -/
def advance (c : Cursor) : Cursor :=
  match c.ahead with
  | [] => c
  | t :: rest => { c with previous := t, ahead := rest }

def isAt (c : Cursor) (m : Mark) : Bool := c.current.isMark m

theorem suffix_advance (c : Cursor) : c.advance.ahead <:+ c.ahead := by
  unfold advance
  split
  · exact List.suffix_rfl
  · rename_i h
    rw [h]
    exact List.suffix_cons _ _

theorem length_advance_lt {c : Cursor} (h : c.ahead ≠ []) :
    c.advance.ahead.length < c.ahead.length := by
  unfold advance
  split
  · contradiction
  · rename_i h
    simp [h]

/-- The cursor behind the next semicolon, or at the end of the section if there is none. -/
def skipLine (c : Cursor) : Cursor :=
  if c.ahead = [] then c
  else if c.isAt .semicolon then c.advance
  else c.advance.skipLine
termination_by c.ahead.length
decreasing_by exact length_advance_lt ‹_›

theorem suffix_skipLine (c : Cursor) : c.skipLine.ahead <:+ c.ahead := by
  fun_induction skipLine c with
  | case1 => exact List.suffix_rfl
  | case2 => exact suffix_advance _
  | case3 c _ _ ih => exact ih.trans (suffix_advance _)

end Cursor

end Breadboard.Definition
