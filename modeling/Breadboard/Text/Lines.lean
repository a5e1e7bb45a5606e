/-!
# Cutting text

Where a text is cut at a separator: into all its pieces, or once at the first separator.
-/
namespace Breadboard.Text

/-- The pieces between separators. There is one more piece than there are separators. -/
def pieces (separator : Char) : List Char → List (List Char)
  | [] => [[]]
  | c :: rest =>
    if c = separator then [] :: pieces separator rest
    else
      match pieces separator rest with
      | [] => [[c]]
      | piece :: more => (c :: piece) :: more

theorem pieces_ne_nil (separator : Char) (cs : List Char) : pieces separator cs ≠ [] := by
  cases cs with
  | nil => simp [pieces]
  | cons c rest =>
    unfold pieces
    split
    · simp
    · split <;> simp

theorem pieces_of_notMem {separator : Char} {cs : List Char} (h : separator ∉ cs) :
    pieces separator cs = [cs] := by
  induction cs with
  | nil => rfl
  | cons c rest ih =>
    rw [List.mem_cons, not_or] at h
    rw [pieces, if_neg (Ne.symm h.1), ih h.2]

/-- The text up to the first separator is the first piece. -/
theorem pieces_append_cons {separator : Char} {cs : List Char} (h : separator ∉ cs)
    (rest : List Char) :
    pieces separator (cs ++ separator :: rest) = cs :: pieces separator rest := by
  induction cs with
  | nil => simp [pieces]
  | cons c cs ih =>
    rw [List.mem_cons, not_or] at h
    rw [List.cons_append, pieces, if_neg (Ne.symm h.1), ih h.2]

/-- Texts that are each ended by the separator are the pieces. The last piece, which is behind them,
is empty. -/
theorem pieces_flatMap {separator : Char} {ls : List (List Char)} (h : ∀ l ∈ ls, separator ∉ l) :
    pieces separator (ls.flatMap fun l => l ++ [separator]) = ls ++ [[]] := by
  induction ls with
  | nil => rfl
  | cons l ls ih =>
    obtain ⟨hl, hls⟩ := List.forall_mem_cons.1 h
    rw [List.flatMap_cons, List.append_assoc, List.singleton_append, pieces_append_cons hl,
      ih hls, List.cons_append]

/-- What stands before and after the first separator, if there is one. -/
def cutAt? (separator : Char) (text : String) : Option (String × String) :=
  match text.toList.span (· != separator) with
  | (_, []) => none
  | (before, _ :: after) => some (String.ofList before, String.ofList after)

/-- The text without the carriage returns at its end. -/
def dropReturns (cs : List Char) : List Char := (cs.reverse.dropWhile (· == '\r')).reverse

/-- The lines of a source, each without the carriage returns at its end. -/
def sourceLines (source : List Char) : List String :=
  (pieces '\n' source).map fun line => String.ofList (dropReturns line)

/-- The lines of a text to be printed. A line feed at the end starts no further line, and a
carriage return before a line feed belongs to the line end. -/
def printedLines (text : String) : List String :=
  let lines := pieces '\n' text.toList
  let ended := lines.dropLast.map fun line =>
    if line.getLast? = some '\r' then line.dropLast else line
  let last := lines.getLast?.getD []
  (if last = [] then ended else ended ++ [last]).map String.ofList

end Breadboard.Text
