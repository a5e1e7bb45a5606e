import Breadboard.Text.Invisible

/-!
# Ligatures

Letters of several scripts that are drawn as one. As a text is measured from its end, a
ligature is met from its last letter on.

* Arabic: a lam and an alef, with nothing but transparent characters between them.
* Hebrew: an alef and a lamed around a joiner.
* Buginese: a letter a, a vowel sign i, a joiner and a letter ya.
* Khmer: a coeng sign takes no column together with the letter after it.
* Tifinagh: two consonants around a joiner or around the script's own consonant joiner.
* Lisu: two tone letters.
* Old Turkic: an ec and an i around a joiner.

Except in Arabic, joiners and traceless marks may stand anywhere in a ligature.
-/
namespace Breadboard.Text

/-- A letter, or more of them, that may be drawn as one with what stands before. -/
inductive Ligature where
  | alef
  | lamed
  | ya
  /-- A Buginese vowel sign in front of a ya. -/
  | vowelYa
  | coengLetter
  | consonant
  /-- The consonant joiner of Tifinagh in front of a consonant. -/
  | joinedConsonant
  | tone
  | orkhonI
  deriving DecidableEq, Repr

namespace Ligature

/-- The letters that join an alef. -/
def isLam (c : Char) : Bool :=
  Ranges.covers [(0x644, 0x644), (0x6B5, 0x6B8), (0x76A, 0x76A), (0x8A6, 0x8A6), (0x8C7, 0x8C7)]
    c.toNat

def isAlef (c : Char) : Bool :=
  Ranges.covers [(0x622, 0x623), (0x625, 0x625), (0x627, 0x627), (0x671, 0x673), (0x675, 0x675),
    (0x773, 0x774), (0x870, 0x882)] c.toNat

/-- The Khmer letters that have a form below another letter which adds nothing to its width. -/
def isCoengLetter (c : Char) : Bool :=
  Ranges.covers [(0x1780, 0x1782), (0x1784, 0x1787), (0x1789, 0x178C), (0x178E, 0x1793),
    (0x1795, 0x1798), (0x179B, 0x179D), (0x17A0, 0x17A0), (0x17A2, 0x17A2), (0x17A7, 0x17A7),
    (0x17AB, 0x17AC), (0x17AF, 0x17AF)] c.toNat

/-- The consonants of Tifinagh that join in pairs. -/
def isConsonant (c : Char) : Bool := Ranges.covers [(0x2D31, 0x2D65), (0x2D6F, 0x2D6F)] c.toNat

/-- The ligature whose last letter a character may be. -/
def ofChar? (c : Char) : Option Ligature :=
  if isAlef c then some .alef
  else if c.toNat = 0x5DC then some .lamed
  else if isCoengLetter c then some .coengLetter
  else if c.toNat = 0x1A10 then some .ya
  else if isConsonant c then some .consonant
  else if Ranges.covers [(0xA4FC, 0xA4FD)] c.toNat then some .tone
  else if c.toNat = 0x10C03 then some .orkhonI
  else none

/-- Whether a character may stand inside a ligature without ending it. -/
def passes (c : Char) : Ligature → Bool
  | .alef => isTransparent c
  | _ => isJoiner c || isTraceless c

/-- Goes on with a ligature by the letter in front of it: the columns of the text, and what
may still be drawn as one with it. `joined` says whether a joiner stands in between. -/
def extend? (c : Char) (width : Nat) (joined : Bool) : Ligature → Option (Nat × Option Ligature)
  | .alef => if isLam c then some (width, none) else none
  | .lamed => if joined && c.toNat == 0x5D0 then some (width, none) else none
  | .ya => if joined && c.toNat == 0x1A17 then some (width, some .vowelYa) else none
  | .vowelYa => if c.toNat == 0x1A15 then some (width, none) else none
  | .coengLetter => if c.toNat == 0x17D2 then some (width - 1, none) else none
  | .consonant =>
    if c.toNat == 0x2D7F then some (width + 1, some .joinedConsonant)
    else if joined && isConsonant c then some (width, none)
    else none
  | .joinedConsonant => if isConsonant c then some (width - 1, none) else none
  | .tone => if Ranges.covers [(0xA4F8, 0xA4FB)] c.toNat then some (width, none) else none
  | .orkhonI => if joined && c.toNat == 0x10C32 then some (width, none) else none

end Ligature

end Breadboard.Text
