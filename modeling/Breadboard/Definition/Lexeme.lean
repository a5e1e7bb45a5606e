import Breadboard.Text.Blank
import Breadboard.Text.Numeric

/-!
# Lexemes

The text of a definition falls into lexemes: words, numbers, punctuation marks, blanks,
comments, and characters that have no place in a definition. Every character belongs to
exactly one of them, and each word and number is as long as it can be.

* `lexemes_flatMap_chars`: put end to end, the lexemes give the text back.
-/
namespace Breadboard.Definition

open Breadboard.Text

/-- The punctuation of a definition. -/
inductive Mark where
  | equal
  | dot
  | comma
  | semicolon
  | openBracket
  | closeBracket
  | openSquare
  | closeSquare
  deriving DecidableEq, Repr

namespace Mark

def all : List Mark :=
  [equal, dot, comma, semicolon, openBracket, closeBracket, openSquare, closeSquare]

def char : Mark → Char
  | equal => '='
  | dot => '.'
  | comma => ','
  | semicolon => ';'
  | openBracket => '('
  | closeBracket => ')'
  | openSquare => '['
  | closeSquare => ']'

def ofChar? (c : Char) : Option Mark := all.find? (·.char == c)

theorem char_of_ofChar? {c : Char} {m : Mark} (h : ofChar? c = some m) : m.char = c := by
  simpa using List.find?_some h

end Mark

inductive Lexeme where
  /-- A letter and the letters and digits after it. -/
  | word (text : List Char)
  /-- A run of ASCII digits. -/
  | number (digits : List Char)
  | mark (m : Mark)
  | blank (c : Char)
  /-- All from a `#` to the end of the line. -/
  | comment (text : List Char)
  /-- A character that can start none of the others. -/
  | stray (c : Char)
  deriving DecidableEq, Repr

def Lexeme.chars : Lexeme → List Char
  | word text => text
  | number digits => digits
  | mark m => [m.char]
  | blank c => [c]
  | comment text => text
  | stray c => [c]

/-- The first lexeme of a text and the text after it. -/
def firstLexeme (c : Char) (rest : List Char) : Lexeme × List Char :=
  if isBlank c then (.blank c, rest)
  else if c = '#' then
    (.comment (c :: rest.takeWhile (· != '\n')), rest.dropWhile (· != '\n'))
  else if isAlphabetic c then
    (.word (c :: rest.takeWhile isAlphanumeric), rest.dropWhile isAlphanumeric)
  else if c.isDigit then
    (.number (c :: rest.takeWhile Char.isDigit), rest.dropWhile Char.isDigit)
  else
    match Mark.ofChar? c with
    | some m => (.mark m, rest)
    | none => (.stray c, rest)

/-- The first lexeme and the text after it make up the text. -/
theorem firstLexeme_chars (c : Char) (rest : List Char) :
    (firstLexeme c rest).1.chars ++ (firstLexeme c rest).2 = c :: rest := by
  unfold firstLexeme
  split
  · rfl
  split
  · simp [Lexeme.chars]
  split
  · simp [Lexeme.chars]
  split
  · simp [Lexeme.chars]
  split
  · rename_i h
    simp [Lexeme.chars, Mark.char_of_ofChar? h]
  · rfl

theorem firstLexeme_rest_le (c : Char) (rest : List Char) :
    (firstLexeme c rest).2.length ≤ rest.length := by
  have drop (p : Char → Bool) : (rest.dropWhile p).length ≤ rest.length :=
    (List.dropWhile_sublist p).length_le
  unfold firstLexeme
  split
  · exact Nat.le_refl _
  split
  · exact drop _
  split
  · exact drop _
  split
  · exact drop _
  split <;> exact Nat.le_refl _

def lexemes : List Char → List Lexeme
  | [] => []
  | c :: rest => (firstLexeme c rest).1 :: lexemes (firstLexeme c rest).2
termination_by cs => cs.length
decreasing_by
  have := firstLexeme_rest_le c rest
  simp only [List.length_cons]
  omega

/-- Put end to end, the lexemes of a text are the text. -/
theorem lexemes_flatMap_chars (cs : List Char) : (lexemes cs).flatMap Lexeme.chars = cs := by
  fun_induction lexemes cs with
  | case1 => rfl
  | case2 c rest ih => rw [List.flatMap_cons, ih, firstLexeme_chars]

end Breadboard.Definition
