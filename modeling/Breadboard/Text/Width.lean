import Breadboard.Text.EmojiSequence
import Breadboard.Text.Ligature
import Breadboard.Text.Wide

/-!
# Display width

The number of columns that a text takes on a terminal. A character takes one column, a wide
one two, an invisible one none. Selectors, ligatures and emoji sequences change that for
characters that stand together, so a text is measured from its end, and of the text behind a
character it is kept what it begins with.
-/
namespace Breadboard.Text

/-- The columns that a character takes by itself. A control takes one. -/
def charWidth (c : Char) : Nat :=
  if isInvisible c then 0
  else if isWide c then 2
  else if c.toNat = 0x17D8 then 3
  else 1

/-- What the text behind a character begins with, as far as the width of the character hangs
on it. -/
inductive Following where
  | plain
  | selector (s : Selector)
  /-- A ligature, whether a joiner stands in front of it, and the selector in front of that. -/
  | ligature (l : Ligature) (joined : Bool) (selector : Option Selector)
  | emoji (e : EmojiSequence)
  deriving DecidableEq, Repr

namespace Following

/-- What a text begins with whose first character does not go on with what follows. -/
def ofChar (c : Char) : Following :=
  match Ligature.ofChar? c, EmojiSequence.ofChar? c with
  | some l, _ => .ligature l false none
  | none, some e => .emoji e
  | none, none => .plain

/-- The selector right behind a character. -/
def selector? : Following → Option Selector
  | .selector s => some s
  | .ligature _ _ s => s
  | .emoji .selected => some .emoji
  | _ => none

/-- Puts a selector in front. A ligature stays what it is behind it, and so does a picture
with a joiner behind the emoji selector. -/
def select (s : Selector) : Following → Following
  | .ligature l joined _ => .ligature l joined (some s)
  | .emoji .joiner | .emoji .keycap => if s = .emoji then .emoji .selected else .selector s
  | _ => .selector s

/-- Goes on with a ligature or an emoji sequence by the character in front of it: the columns
of the text, and what it then begins with. -/
def extend? (c : Char) (width : Nat) : Following → Option (Nat × Following)
  | .ligature l joined _ =>
    if l.passes c then some (width, .ligature l (joined || isJoiner c) none)
    else (l.extend? c width joined).map fun (width, rest) =>
      (width, rest.elim .plain (.ligature · false none))
  | .emoji e => (e.extend? c width).map fun (width, e) => (width, .emoji e)
  | _ => none

end Following

/-- Takes one more character in front of a text whose width is known. -/
def widen (c : Char) : Nat × Following → Nat × Following
  | (width, next) =>
    if next.selector? = some .emoji && heedsEmojiSelector c then
      (if next = .emoji .selected then width else width + 2, .emoji .picture)
    else if next.selector? = some .text && heedsTextSelector c then (width + 1, .plain)
    else match Selector.ofChar? c with
      | some s => (width, next.select s)
      | none => (next.extend? c width).getD (width + charWidth c, .ofChar c)

def width (text : List Char) : Nat := (text.foldr widen (0, .plain)).1

end Breadboard.Text
