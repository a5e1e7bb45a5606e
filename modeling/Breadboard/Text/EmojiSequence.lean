import Breadboard.Text.Emoji
import Breadboard.Text.Invisible

/-!
# Emoji sequences

Several emoji may be drawn as one picture: a body with a skin tone, two regional indicators
as a flag, a black flag with tags, and any of them joined by a zero width joiner to the
picture after it. A text is measured from its end, so a sequence is met from its end too:
each character either goes on with the sequence behind it, or starts anew.

What is joined to a picture takes no columns besides those of the picture. Among regional
indicators in front of a joiner, pairs are counted from the joiner on: the last pair is the
flag that is joined, and a single indicator more leaves that flag unjoined.
-/
namespace Breadboard.Text

/-- What a text begins with when that is an emoji or a part of one. -/
inductive EmojiSequence where
  /-- A picture, with all that belongs to it. -/
  | picture
  | skinTone
  | regional
  /-- Two or more regional indicators. -/
  | regionals
  /-- A joiner and a picture. -/
  | joiner
  /-- A keycap mark, a joiner and a picture. -/
  | keycap
  /-- The emoji selector in front of a joiner or of a keycap that is joined. -/
  | selected
  /-- One regional indicator in front of a joiner. -/
  | joinedRegional
  /-- An even number of regional indicators in front of a joiner. -/
  | joinedFlags
  /-- An odd number of regional indicators, three or more, in front of a joiner. -/
  | brokenFlags
  /-- Tags in front of a joiner, closed as they must be: some letters at the end, and some
  digits before them. -/
  | tags (letters digits : Nat)
  deriving DecidableEq, Repr

namespace EmojiSequence

/-- The sequence that a character ends. -/
def ofChar? (c : Char) : Option EmojiSequence :=
  if isRegional c then some .regional
  else if isSkinTone c then some .skinTone
  else if isPicture c then some .picture
  else none

/-- A joiner goes in front of a whole picture. -/
def join? (c : Char) (width : Nat) : Option (Nat × EmojiSequence) :=
  if isJoiner c then some (width, .joiner) else none

/-- Whether so many tags name a region: three digits, or three to six letters. -/
def namesRegion (letters digits : Nat) : Bool :=
  digits == 3 || (digits == 0 && 3 ≤ letters && letters ≤ 6)

/-- Goes on with a sequence by the character in front of it: the columns of the text, and the
sequence that it then begins with. -/
def extend? (c : Char) (width : Nat) : EmojiSequence → Option (Nat × EmojiSequence)
  | .picture => join? c width
  | .skinTone => if isBody c then some (width, .picture) else join? c width
  | .regional => if isRegional c then some (width + 1, .regionals) else none
  | .regionals => if isRegional c then some (width + 1, .regionals) else join? c width
  | .joiner =>
    if isKeycap c then some (width, .keycap)
    else if isRegional c then some (width + 1, .joinedRegional)
    else if isSkinTone c then some (width, .skinTone)
    else if isTagEnd c then some (width, .tags 0 0)
    else if isPicture c then some (width, .picture)
    else none
  | .keycap => none
  | .selected => none
  | .joinedRegional => if isRegional c then some (width - 1, .joinedFlags) else none
  | .joinedFlags => if isRegional c then some (width + 3, .brokenFlags) else join? c width
  | .brokenFlags => if isRegional c then some (width - 1, .joinedFlags) else join? c width
  | .tags letters digits =>
    if isTagLetter c && digits = 0 && letters < 6 then some (width, .tags (letters + 1) 0)
    else if isTagDigit c && letters ≤ 4 && digits < 3 then some (width, .tags letters (digits + 1))
    else if isBlackFlag c && namesRegion letters digits then some (width, .picture)
    else none

end EmojiSequence

end Breadboard.Text
