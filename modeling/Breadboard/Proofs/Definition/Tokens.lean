import Breadboard.Definition.Fault
import Breadboard.Proofs.Definition.Lexemes
import Breadboard.Proofs.Definition.Scanning

/-!
# Tokens and where they stand

A scan accounts for every character of a text once. `Tokenizes` says which tokens are left of the
lexemes of a text: their texts, places and kinds, in the order of the text. `TokenStream` is the
text read one token at a time, as a reader with a single token of lookahead asks for them.

* `tokenizes_tokensFrom`: the tokens of a scan are the ones that are left of the lexemes.
* `TokenStream.reads_eq`: a text that is read token by token gives the tokens of its scan, and then
  the end of the file for ever.
* `scan_accounts`: the two for a whole text, with the characters that have no place in it.
-/
namespace Breadboard.Definition

/-! ## Kinds -/

/-- What kind of token a lexeme is, given whether the token before it is an opening square bracket.
-/
inductive Lexeme.IsKind (names : NameTable) (opened : Bool) : Lexeme → TokenKind → Prop where
  | heading {text : List Char} {s : Section} {id : NameId} :
      opened = true → String.ofList text = s.heading →
        names.query? (String.ofList text) = some id → IsKind names opened (word text) (.heading s id)
  | logic {text : List Char} {k : DeviceKind} {id : NameId} :
      (∀ s : Section, opened = true → String.ofList text ≠ s.heading) →
        String.ofList text = k.keyword →
          names.query? (String.ofList text) = some id → IsKind names opened (word text) (.logic k id)
  | name {text : List Char} {id : NameId} :
      (∀ s : Section, opened = true → String.ofList text ≠ s.heading) →
        (∀ k : DeviceKind, String.ofList text ≠ k.keyword) →
          names.query? (String.ofList text) = some id → IsKind names opened (word text) (.name id)
  | number {digits : List Char} : IsKind names opened (number digits) .number
  | mark {m : Mark} : IsKind names opened (mark m) (.mark m)

variable {names final : NameTable} {opened : Bool}

theorem isMark_wordKind (word : String) (id : NameId) (p : Position) (m : Mark) :
    (Token.mk (wordKind opened word id) word p).isMark m = false := by
  have hkind : wordKind opened word id ≠ .mark m := by
    unfold wordKind
    generalize (if opened = true then Section.ofHeading? word else none) = found
    cases found with
    | some s => simp
    | none => cases DeviceKind.ofKeyword? word <;> simp
  simp [Token.isMark, hkind]

theorem isKind_word {text : List Char} {id : NameId}
    (h : names.query? (String.ofList text) = some id) :
    Lexeme.IsKind names opened (.word text) (wordKind opened (String.ofList text) id) := by
  unfold wordKind
  split
  · rename_i s hs
    split at hs
    · rename_i hopened
      exact .heading hopened (Section.heading_of_ofHeading? hs).symm h
    · cases hs
  · rename_i hnone
    have hheading : ∀ s : Section, opened = true → String.ofList text ≠ s.heading := by
      intro s hopened hs
      rw [if_pos hopened, hs, Section.ofHeading?_heading] at hnone
      cases hnone
    split
    · rename_i k hk
      exact .logic hheading (DeviceKind.keyword_of_ofKeyword? hk).symm h
    · rename_i hkeyword
      refine .name hheading (fun k hk => ?_) h
      rw [hk, DeviceKind.ofKeyword?_keyword] at hkeyword
      cases hkeyword

/-! ## The tokens of a text -/

/-- Lexemes with the text before each of them. -/
def preceded (before : List Char) : List Lexeme → List (List Char × Lexeme)
  | [] => []
  | l :: rest => (before, l) :: preceded (before ++ l.chars) rest

/-- Whether a lexeme is a token. -/
def Lexeme.isToken : Lexeme → Bool
  | word _ | number _ | mark _ => true
  | blank _ | comment _ | stray _ => false

/-- The tokens that are left of lexemes, given the token before them. -/
inductive Tokenizes (names : NameTable) :
    Option Token → List (List Char × Lexeme) → List Token → Prop where
  | nil {last : Option Token} : Tokenizes names last [] []
  | skip {last : Option Token} {before : List Char} {l : Lexeme} {rest : List (List Char × Lexeme)}
      {ts : List Token} :
      l.isToken = false → Tokenizes names last rest ts →
        Tokenizes names last ((before, l) :: rest) ts
  | token {last : Option Token} {before : List Char} {l : Lexeme} {rest : List (List Char × Lexeme)}
      {t : Token} {ts : List Token} :
      t.text = String.ofList l.chars → t.position = .behind before →
        l.IsKind names (last.any (·.isMark .openSquare)) t.kind →
          Tokenizes names (some t) rest ts → Tokenizes names last ((before, l) :: rest) (t :: ts)

/-- The characters that have no place in a definition, with the text before each of them. -/
def straysAmong (pieces : List (List Char × Lexeme)) : List (List Char × Char) :=
  pieces.filterMap fun (before, l) =>
    match l with
    | .stray c => some (before, c)
    | _ => none

theorem placed_behind (before : List Char) (ls : List Lexeme) :
    placed (.behind before) ls =
      (preceded before ls).map fun (before, l) => (Position.behind before, l) := by
  induction ls generalizing before with
  | nil => rfl
  | cons l ls ih => simp [placed, preceded, Position.after_behind, ih]

theorem names_isPrefix_tokensFrom (names : NameTable) (afterSquare : Bool)
    (pieces : List (Position × Lexeme)) :
    names.names <+: (tokensFrom names afterSquare pieces).2.names := by
  rw [names_tokensFrom]
  exact names.names_isPrefix_lookup _

/-- The tokens of a scan are the ones that are left of the lexemes. -/
theorem tokenizes_tokensFrom (before : List Char) (ls : List Lexeme) {last : Option Token}
    (hopened : last.any (·.isMark .openSquare) = opened)
    (hfinal : (tokensFrom names opened (placed (.behind before) ls)).2.names <+: final.names) :
    Tokenizes final last (preceded before ls)
      (tokensFrom names opened (placed (.behind before) ls)).1 := by
  induction ls generalizing names opened before last with
  | nil => exact .nil
  | cons l ls ih =>
    rw [placed, Position.after_behind] at hfinal ⊢
    cases l with
    | word text =>
      have hgrown : (names.intern (String.ofList text)).2.names <+: final.names :=
        (names_isPrefix_tokensFrom _ _ _).trans hfinal
      have hquery := NameTable.query?_of_isPrefix hgrown (names.query?_intern _)
      refine .token rfl rfl ?_ (ih _ (isMark_wordKind _ _ _ _) hfinal)
      rw [hopened]
      exact isKind_word hquery
    | number digits => exact .token rfl rfl .number (ih _ rfl hfinal)
    | mark m =>
      refine .token rfl rfl .mark (ih _ ?_ hfinal)
      simp [Token.isMark]
    | blank | comment | stray => exact .skip rfl (ih _ hopened hfinal)

/-! ## Token by token -/

/-- A text that is read token by token. -/
structure TokenStream where
  /-- The text that has not been read. -/
  rest : List Char
  /-- The place where it begins. -/
  position : Position := {}
  /-- Whether the last token was an opening square bracket. -/
  afterSquare : Bool := false
  names : NameTable
  /-- The characters without a place in a definition that have been passed. -/
  strays : List (Position × Char) := []

/-- The characters without a place in a definition among placed lexemes. -/
def placedStrays (pieces : List (Position × Lexeme)) : List (Position × Char) :=
  pieces.filterMap fun (p, l) =>
    match l with
    | .stray c => some (p, c)
    | _ => none

theorem placedStrays_append (pieces pieces' : List (Position × Lexeme)) :
    placedStrays (pieces ++ pieces') = placedStrays pieces ++ placedStrays pieces' :=
  List.filterMap_append

/-- No stray character is placed where there is none among the lexemes. -/
theorem placedStrays_eq_nil_iff {p : Position} {ls : List Lexeme} :
    placedStrays (placed p ls) = [] ↔ ∀ c, .stray c ∉ ls := by
  induction ls generalizing p with
  | nil => simp [placedStrays, placed]
  | cons l ls ih =>
    have hcons : placedStrays (placed p (l :: ls)) =
        placedStrays [(p, l)] ++ placedStrays (placed (p.after l.chars) ls) :=
      placedStrays_append [(p, l)] _
    rw [hcons, List.append_eq_nil_iff, ih]
    cases l with
    | stray c => exact iff_of_false (by simp [placedStrays]) fun h => h c List.mem_cons_self
    | word | number | mark | blank | comment => simp [placedStrays]

theorem placedStrays_placed (before : List Char) (ls : List Lexeme) :
    placedStrays (placed (.behind before) ls) =
      (straysAmong (preceded before ls)).map fun (before, c) => (Position.behind before, c) := by
  rw [placed_behind, placedStrays, straysAmong, List.filterMap_map, List.map_filterMap]
  refine List.filterMap_congr fun (before, l) _ => ?_
  cases l <;> rfl

namespace TokenStream

/-- Passes the first lexeme, which is a token or not, given the text behind it. -/
def pass (s : TokenStream) (l : Lexeme) (rest : List Char) : Option Token × TokenStream :=
  let moved := { s with rest, position := s.position.after l.chars }
  match l with
  | .word text =>
    let word := String.ofList text
    let (id, names) := s.names.intern word
    (some ⟨wordKind s.afterSquare word id, word, s.position⟩,
      { moved with afterSquare := false, names })
  | .number digits =>
    (some ⟨.number, String.ofList digits, s.position⟩, { moved with afterSquare := false })
  | .mark m =>
    (some ⟨.mark m, String.singleton m.char, s.position⟩,
      { moved with afterSquare := m = .openSquare })
  | .stray c => (none, { moved with strays := s.strays ++ [(s.position, c)] })
  | .blank _ | .comment _ => (none, moved)

section pass

variable (s : TokenStream) (l : Lexeme) (rest : List Char)

theorem rest_pass : (s.pass l rest).2.rest = rest := by
  cases l <;> rfl

theorem position_pass : (s.pass l rest).2.position = s.position.after l.chars := by
  cases l <;> rfl

theorem strays_pass :
    (s.pass l rest).2.strays = s.strays ++ placedStrays [(s.position, l)] := by
  cases l <;> simp [pass, placedStrays]

theorem tokensFrom_pass (pieces : List (Position × Lexeme)) :
    tokensFrom s.names s.afterSquare ((s.position, l) :: pieces) =
      let (t?, s') := s.pass l rest
      let (ts, names) := tokensFrom s'.names s'.afterSquare pieces
      (t?.toList ++ ts, names) := by
  cases l <;> rfl

end pass

/-- The next token, and the text behind it. What is no token is passed on the way to it; at the end
of the text it is the end of the file. -/
def next (s : TokenStream) : Token × TokenStream :=
  match _hrest : s.rest with
  | [] => (⟨.endOfFile, "", s.position⟩, { s with afterSquare := false })
  | c :: cs =>
    match _hpass : s.pass (firstLexeme c cs).1 (firstLexeme c cs).2 with
    | (some t, s') => (t, s')
    | (none, s') => s'.next
termination_by s.rest.length
decreasing_by
  have hmoved := s.rest_pass (firstLexeme c cs).1 (firstLexeme c cs).2
  rw [_hpass] at hmoved
  change s'.rest = _ at hmoved
  have hle := firstLexeme_rest_le c cs
  rw [hmoved, _hrest, List.length_cons]
  omega

/-- The next tokens, as many as are asked for. -/
def reads : Nat → TokenStream → List Token × TokenStream
  | 0, s => ([], s)
  | n + 1, s =>
    let (t, s) := s.next
    let (ts, s) := reads n s
    (t :: ts, s)

variable {s s' : TokenStream}

theorem next_nil (h : s.rest = []) :
    s.next = (⟨.endOfFile, "", s.position⟩, { s with afterSquare := false }) := by
  rw [next]
  split
  · rfl
  · simp_all

/-- After the end of the file, it is read for ever. -/
theorem reads_nil (h : s.rest = []) (n : Nat) :
    s.reads (n + 1) =
      (List.replicate (n + 1) ⟨.endOfFile, "", s.position⟩, { s with afterSquare := false }) := by
  induction n generalizing s with
  | zero => simp [reads, next_nil h]
  | succ n ih =>
    have hend : ({ s with afterSquare := false } : TokenStream).rest = [] := h
    rw [reads, next_nil h]
    simp only [ih hend, List.replicate_succ]

/-- The first lexeme is passed on the way to the next token, or is that token. -/
theorem next_cons {c : Char} {cs : List Char} (h : s.rest = c :: cs) :
    s.next =
      match s.pass (firstLexeme c cs).1 (firstLexeme c cs).2 with
      | (some t, s') => (t, s')
      | (none, s') => s'.next := by
  rw [next]
  split
  · simp_all
  · rename_i hcons
    rw [h] at hcons
    cases hcons
    split <;> simp_all

/-- The first lexeme adds a token to those that are read, or adds none. -/
theorem reads_pass {c : Char} {cs : List Char} (h : s.rest = c :: cs) (n : Nat) :
    let (t?, s') := s.pass (firstLexeme c cs).1 (firstLexeme c cs).2
    s.reads (t?.toList.length + (n + 1)) =
      (t?.toList ++ (s'.reads (n + 1)).1, (s'.reads (n + 1)).2) := by
  have hnext := next_cons h
  generalize s.pass (firstLexeme c cs).1 (firstLexeme c cs).2 = x at hnext ⊢
  obtain ⟨t?, s'⟩ := x
  cases t? with
  | none => simp [reads, hnext]
  | some t =>
    simp only [Option.toList_some, List.length_singleton, Nat.add_comm 1]
    rw [reads, hnext]
    rfl

/-- A text that is read token by token gives the tokens of its scan, and then the end of the file
for ever. -/
theorem reads_eq (ls : List Lexeme) (s : TokenStream) (hls : lexemes s.rest = ls) (n : Nat) :
    let pieces := placed s.position ls
    let (ts, names) := tokensFrom s.names s.afterSquare pieces
    let finish := s.position.after s.rest
    s.reads (ts.length + (n + 1)) =
      (ts ++ List.replicate (n + 1) ⟨.endOfFile, "", finish⟩,
        ⟨[], finish, false, names, s.strays ++ placedStrays pieces⟩) := by
  induction ls generalizing s with
  | nil =>
    cases hrest : s.rest with
    | cons c cs =>
      rw [hrest, lexemes] at hls
      cases hls
    | nil => simp [tokensFrom, placed, placedStrays, reads_nil hrest, Position.after, hrest]
  | cons l ls ih =>
    cases hrest : s.rest with
    | nil =>
      rw [hrest, lexemes] at hls
      cases hls
    | cons c cs =>
      rw [hrest, lexemes] at hls
      obtain ⟨rfl, htail⟩ := List.cons.inj hls
      have hfinish : (s.position.after (firstLexeme c cs).1.chars).after (firstLexeme c cs).2 =
          s.position.after (c :: cs) := by
        rw [← Position.after_append, firstLexeme_chars]
      have hread := reads_pass hrest
      have hstrays := s.strays_pass (firstLexeme c cs).1 (firstLexeme c cs).2
      have ih := ih (s.pass (firstLexeme c cs).1 (firstLexeme c cs).2).2 (by rw [rest_pass, htail])
      rw [position_pass, rest_pass, hfinish] at ih
      simp only [placed, s.tokensFrom_pass _ (firstLexeme c cs).2]
      generalize s.pass (firstLexeme c cs).1 (firstLexeme c cs).2 = x at hread hstrays ih ⊢
      obtain ⟨t?, s'⟩ := x
      simp only at hread hstrays ih ⊢
      rw [List.length_append, Nat.add_assoc, ← Nat.add_assoc _ n 1, hread, Nat.add_assoc, ih,
        hstrays, List.append_assoc, ← placedStrays_append, List.append_assoc]
      rfl

end TokenStream

/-! ## Whole texts -/

/-- **Every character once.** A text falls in one way only into words, numbers, punctuation marks,
blanks, comments and stray characters. The tokens of its scan are the words, numbers and marks, each
with its place and kind; there is one diagnostic for each stray character, in the order of the text;
and whoever reads the text token by token gets those tokens, and from then on the end of the file
without any further change. -/
theorem scan_accounts (names : NameTable) (source : List Char) :
    let scanned := scan names source
    ∃ ls : List Lexeme,
      (∀ ls', Splits ls' source ↔ ls' = ls) ∧
      Tokenizes scanned.names none (preceded [] ls) scanned.tokens ∧
      (∀ lines : Array String, scanned.issues.map (·.diagnostic lines) =
        (straysAmong (preceded [] ls)).map fun (before, c) =>
          { kind := .invalidCharacter
            message := s!"Unexpected character '{c}'"
            position := .behind before
            lineText := lines[(Position.behind before).line]?.getD "" }) ∧
      scanned.finish = ⟨.endOfFile, "", .behind source⟩ ∧
      ∀ n, TokenStream.reads (scanned.tokens.length + (n + 1)) { rest := source, names } =
        (scanned.tokens ++ List.replicate (n + 1) scanned.finish,
          { rest := [], position := .behind source, names := scanned.names,
            strays := scanned.strays }) := by
  have hstart : Position.after {} source = .behind source := Position.after_behind [] source
  refine ⟨lexemes source, fun ls' => splits_iff, ?_, fun lines => ?_, ?_, fun n => ?_⟩
  · exact tokenizes_tokensFrom [] (lexemes source) rfl List.prefix_rfl
  · have hstrays : (scan names source).strays = _ := placedStrays_placed [] (lexemes source)
    rw [Scan.issues, hstrays, List.map_map, List.map_map]
    rfl
  · rw [← hstart]
    rfl
  · have hreads := TokenStream.reads_eq (lexemes source) { rest := source, names } rfl n
    rw [← hstart]
    exact hreads

end Breadboard.Definition
