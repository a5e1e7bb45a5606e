import Breadboard.Definition.Position
import Breadboard.Definition.Section
import Breadboard.Device.Kind

/-!
# Tokens

What is left of a definition when blanks, comments and stray characters are taken out. Every
word is entered into the name table as it is read. A word is a heading only right after an
opening square bracket, so that the headings may be used as names elsewhere; the words for
the kinds of device are reserved everywhere.
-/
namespace Breadboard.Definition

inductive TokenKind where
  | heading (s : Section) (id : NameId)
  /-- A word for a kind of device. -/
  | logic (kind : DeviceKind) (id : NameId)
  | name (id : NameId)
  | number
  | mark (m : Mark)
  | endOfFile
  deriving DecidableEq, Repr

structure Token where
  kind : TokenKind
  text : String
  position : Position
  deriving DecidableEq, Repr

namespace Token

/-- The number of a word in the name table. -/
def id? (t : Token) : Option NameId :=
  match t.kind with
  | .heading _ id => some id
  | .logic _ id => some id
  | .name id => some id
  | _ => none

def isMark (t : Token) (m : Mark) : Bool := t.kind = .mark m

def digitsValue (digits : List Char) : Nat :=
  digits.foldl (fun n c => 10 * n + (c.toNat - '0'.toNat)) 0

/-- The value of a number token, if it fits into 32 bits. -/
def number? (t : Token) : Option UInt32 :=
  if t.kind = .number then
    let n := digitsValue t.text.toList
    if n < UInt32.size then some (UInt32.ofNat n) else none
  else none

/-- The token as it is named in a message. -/
def describe (t : Token) : String :=
  if t.kind = .endOfFile then "end of file" else s!"'{t.text}'"

end Token

/-- What a word is, given whether it stands right after an opening square bracket. -/
def wordKind (afterSquare : Bool) (word : String) (id : NameId) : TokenKind :=
  match (if afterSquare then Section.ofHeading? word else none) with
  | some s => .heading s id
  | none =>
    match DeviceKind.ofKeyword? word with
    | some kind => .logic kind id
    | none => .name id

/-- The tokens among placed lexemes, and the name table with the words entered. -/
def tokensFrom (names : NameTable) (afterSquare : Bool) :
    List (Position × Lexeme) → List Token × NameTable
  | [] => ([], names)
  | (p, .word text) :: rest =>
    let word := String.ofList text
    let (id, names) := names.intern word
    let (tokens, names) := tokensFrom names false rest
    (⟨wordKind afterSquare word id, word, p⟩ :: tokens, names)
  | (p, .number digits) :: rest =>
    let (tokens, names) := tokensFrom names false rest
    (⟨.number, String.ofList digits, p⟩ :: tokens, names)
  | (p, .mark m) :: rest =>
    let (tokens, names) := tokensFrom names (m = .openSquare) rest
    (⟨.mark m, String.singleton m.char, p⟩ :: tokens, names)
  | _ :: rest => tokensFrom names afterSquare rest

/-- What a definition looks like to its readers. -/
structure Scan where
  /-- The tokens, without the one for the end of the file. -/
  tokens : List Token
  /-- The token for the end of the file. -/
  finish : Token
  /-- The characters that have no place in a definition. -/
  strays : List (Position × Char)
  /-- The name table with all words entered. -/
  names : NameTable

/-- Reads the tokens of a source text. -/
def scan (names : NameTable) (source : List Char) : Scan :=
  let pieces := placed {} (lexemes source)
  let (tokens, names) := tokensFrom names false pieces
  { tokens
    finish := ⟨.endOfFile, "", Position.after {} source⟩
    strays := pieces.filterMap fun (p, l) =>
      match l with
      | .stray c => some (p, c)
      | _ => none
    names }

end Breadboard.Definition
