import Breadboard.Proofs.Definition.Sections

/-!
# Files read in order

`readFile` cuts a file into pieces before it looks at any of them. Here the same file is read with
one token of lookahead: section by section, each of which looks for its own header. A header that
turns out to be that of a later section is kept for that section.

* `readHeader_none`, `readHeader_some`: the search for a header does what the pieces do that it
  passes.
* `readSection_outcome`: each section leaves what comes of the file unchanged.
* `readInOrder_eq`: no header is left over when all sections have had their turn, and both ways of
  reading give the same draft.
-/
namespace Breadboard.Definition

/-- The place of a section in the order in which the sections have to come. -/
def Section.rank : Section → Nat
  | devices => 0
  | conns => 1
  | monit => 2

theorem Section.rank_injective : Function.Injective Section.rank := by
  intro s s' h
  cases s <;> cases s' <;> first | rfl | cases h

/-! ## Sections of a file -/

/-- The tokens before the first piece of a file are the ones before its first opening bracket. -/
theorem fst_chunks (finish : Token) (ts : List Token) :
    (chunks finish ts).1 = ts.takeWhile (!·.isMark .openSquare) := by
  induction ts with
  | nil => rfl
  | cons t ts ih => cases ht : t.isMark .openSquare <;> simp [chunks, ht, ih]

theorem snd_chunks_dropWhile (finish : Token) (ts : List Token) :
    (chunks finish (ts.dropWhile (!·.isMark .openSquare))).2 = (chunks finish ts).2 := by
  induction ts with
  | nil => rfl
  | cons t ts ih => cases ht : t.isMark .openSquare <;> simp [chunks, ht, ih]

/-- The first piece of a file begins with its first opening bracket. -/
theorem head?_snd_chunks (finish : Token) (ts : List Token) :
    (chunks finish ts).2.head?.map Chunk.opening =
      (ts.dropWhile (!·.isMark .openSquare)).head? := by
  induction ts with
  | nil => rfl
  | cons t ts ih => cases ht : t.isMark .openSquare <;> simp [chunks, ht, ih]

namespace Cursor

variable {c : Cursor}

/-- The cursor stands before an opening square bracket or at the end of the file. -/
def AtSection (c : Cursor) : Prop := c.ahead = [] ∨ c.isAt .openSquare = true

instance : DecidablePred AtSection := fun _ => inferInstanceAs (Decidable (_ ∨ _))

/-- The cursor at the next opening square bracket, or at the end of the file. -/
def toSection (c : Cursor) : Cursor := if c.AtSection then c else c.advance.toSection
termination_by c.ahead.length
decreasing_by exact length_advance_lt fun hnil => ‹¬_› (Or.inl hnil)

/-- The cursor for the lines from here to the next opening square bracket. -/
def inSection (c : Cursor) : Cursor :=
  ⟨c.previous, c.ahead.takeWhile (!·.isMark .openSquare), c.toSection.current⟩

theorem atSection_iff :
    c.AtSection ↔ c.ahead = [] ∨ ∃ t rest, c.ahead = t :: rest ∧ t.isMark .openSquare = true := by
  unfold AtSection
  cases hc : c.ahead with
  | nil => simp
  | cons t rest => simp [isAt, current_cons hc]

theorem not_atSection_iff :
    ¬c.AtSection ↔ ∃ t rest, c.ahead = t :: rest ∧ t.isMark .openSquare = false := by
  rw [atSection_iff]
  cases c.ahead <;> simp

theorem toSection_of_atSection (h : c.AtSection) : c.toSection = c := by
  rw [toSection, if_pos h]

theorem toSection_advance (h : ¬c.AtSection) : c.advance.toSection = c.toSection := by
  rw [toSection.eq_def c, if_neg h]

theorem atSection_toSection (c : Cursor) : c.toSection.AtSection := by
  fun_induction toSection c with
  | case1 c h => exact h
  | case2 c h ih => exact ih

theorem stop_toSection (c : Cursor) : c.toSection.stop = c.stop := by
  fun_induction toSection c with
  | case1 c h => rfl
  | case2 c h ih => rw [ih, stop_advance]

/-- What is left at the next opening square bracket is that bracket and all behind it. -/
theorem ahead_toSection (c : Cursor) :
    c.toSection.ahead = c.ahead.dropWhile (!·.isMark .openSquare) := by
  fun_induction toSection c with
  | case1 c h =>
    rcases atSection_iff.1 h with hc | ⟨t, rest, hc, ht⟩
    · simp [hc]
    · simp [hc, ht]
  | case2 c h ih =>
    obtain ⟨t, rest, hc, ht⟩ := not_atSection_iff.1 h
    rw [ih, advance_cons hc]
    simp [hc, ht]

theorem length_toSection_le (c : Cursor) : c.toSection.ahead.length ≤ c.ahead.length := by
  rw [ahead_toSection]
  exact (List.dropWhile_sublist _).length_le

theorem ahead_inSection (c : Cursor) :
    c.inSection.ahead = c.ahead.takeWhile (!·.isMark .openSquare) := rfl

@[simp]
theorem current_inSection (c : Cursor) : c.inSection.current = c.current := by
  by_cases h : c.AtSection
  · have hnone : c.inSection.ahead = [] := by
      rcases atSection_iff.1 h with hc | ⟨t, rest, hc, ht⟩
      · simp [ahead_inSection, hc]
      · simp [ahead_inSection, hc, ht]
    rw [current, hnone, List.headD_nil]
    show c.toSection.current = c.current
    rw [toSection_of_atSection h]
  · obtain ⟨t, rest, hc, ht⟩ := not_atSection_iff.1 h
    have hmore : c.inSection.ahead = t :: rest.takeWhile (!·.isMark .openSquare) := by
      simp [ahead_inSection, hc, ht]
    rw [current_cons hc, current_cons hmore]

theorem advance_inSection (h : ¬c.AtSection) : c.inSection.advance = c.advance.inSection := by
  obtain ⟨t, rest, hc, ht⟩ := not_atSection_iff.1 h
  have hmore : c.inSection.ahead = t :: rest.takeWhile (!·.isMark .openSquare) := by
    simp [ahead_inSection, hc, ht]
  have hsection := toSection_advance h
  rw [advance_cons hmore]
  rw [advance_cons hc] at hsection ⊢
  simp only [inSection, hsection]

/-- The pieces of a file from a cursor on. -/
def pieces (c : Cursor) : List Chunk := (chunks c.stop c.ahead).2

theorem pieces_toSection (c : Cursor) : c.toSection.pieces = c.pieces := by
  rw [pieces, pieces, ahead_toSection, stop_toSection, snd_chunks_dropWhile]

theorem pieces_advance (h : ¬c.AtSection) : c.advance.pieces = c.pieces := by
  rw [← pieces_toSection, toSection_advance h, pieces_toSection]

theorem pieces_of_nil (h : c.ahead = []) : c.pieces = [] := by
  rw [pieces, h]
  rfl

/-- A piece is what a cursor behind an opening square bracket has in its section. -/
theorem pieces_of_open {t : Token} {rest : List Token} (h : c.ahead = t :: rest)
    (ht : t.isMark .openSquare = true) :
    ∃ chunk, c.pieces = chunk :: c.advance.pieces ∧ chunk.cursor = c.advance.inSection := by
  have hadvance := advance_cons h
  have hstop : c.advance.toSection.current =
      (rest.dropWhile (!·.isMark .openSquare)).head?.getD c.stop := by
    rw [current, ahead_toSection, stop_toSection, hadvance, List.headD_eq_head?_getD]
  refine ⟨⟨t, (chunks c.stop rest).1, ((chunks c.stop rest).2.head?.map Chunk.opening).getD c.stop⟩,
    ?_, ?_⟩
  · simp [pieces, h, chunks, ht, hadvance]
  · rw [Chunk.cursor, inSection, fst_chunks, head?_snd_chunks, hstop, hadvance]

end Cursor

/-! ## Headers -/

/-- Passes the closing bracket of a header, or reports that it is not there. -/
def readCloseSquare (s : Section) (c : Cursor) (d : Draft) : Cursor × Draft :=
  if c.isAt .closeSquare then (c.advance, d)
  else (c, d.report ((Fault.unclosedHeader s c.current).on c.current))

/-- Looks for a header from an opening square bracket on. Brackets without a heading are reported
and passed; a header without its closing bracket is reported and counts all the same. -/
def readHeader (c : Cursor) (d : Draft) : Option (Section × Token) × Cursor × Draft :=
  if _h : c.ahead = [] then (none, c, d)
  else if !c.isAt .openSquare then (none, c, d)
  else
    match c.advance.current.kind with
    | .heading s _ => (some (s, c.advance.current), readCloseSquare s c.advance.advance d)
    | _ =>
      readHeader c.advance.toSection
        (d.report ((Fault.expectedHeading c.advance.current).on c.advance.current))
termination_by c.ahead.length
decreasing_by
  exact Nat.lt_of_le_of_lt c.advance.length_toSection_le (Cursor.length_advance_lt _h)

variable {limit : Nat} {reported : List Section} {c c' : Cursor} {d d' : Draft}

theorem not_atSection_of_heading {s : Section} {id : NameId} (hstop : c.stop.kind = .endOfFile)
    (h : c.current.kind = .heading s id) : ¬c.AtSection := by
  rw [Cursor.atSection_iff]
  rintro (hc | ⟨t, rest, hc, ht⟩)
  · rw [Cursor.current, hc, List.headD_nil, hstop] at h
    cases h
  · rw [Cursor.current_cons hc] at h
    simp [Token.isMark, h] at ht

theorem not_atSection_of_isAt {m : Mark} (hstop : c.stop.kind = .endOfFile)
    (h : c.isAt m = true) (hm : m ≠ .openSquare) : ¬c.AtSection := by
  simp only [Cursor.isAt, Token.isMark, decide_eq_true_eq] at h
  rw [Cursor.atSection_iff]
  rintro (hc | ⟨t, rest, hc, ht⟩)
  · rw [Cursor.current, hc, List.headD_nil, hstop] at h
    cases h
  · rw [Cursor.current_cons hc] at h
    simp only [Token.isMark, h, decide_eq_true_eq, TokenKind.mark.injEq] at ht
    exact hm ht

/-- The bracket at which the search for a header goes on stands at the front of a piece. -/
theorem exists_open (hne : c.ahead ≠ []) (hopen : ¬(!c.isAt .openSquare) = true) :
    ∃ chunk, c.pieces = chunk :: c.advance.pieces ∧ chunk.cursor = c.advance.inSection := by
  cases hc : c.ahead with
  | nil => exact absurd hc hne
  | cons t rest =>
    rw [Bool.not_eq_true, Bool.not_eq_false', Cursor.isAt, Cursor.current_cons hc] at hopen
    exact Cursor.pieces_of_open hc hopen

theorem suffix_readCloseSquare (s : Section) (c : Cursor) (d : Draft) :
    (readCloseSquare s c d).1.ahead <:+ c.ahead := by
  unfold readCloseSquare
  split
  · exact c.suffix_advance
  · exact List.suffix_rfl

theorem length_readHeader_lt {header : Section × Token}
    (h : readHeader c d = (some header, c', d')) : c'.ahead.length < c.ahead.length := by
  fun_induction readHeader c d with
  | case1 => cases h
  | case2 => cases h
  | case3 c d hne hopen s id hkind =>
    have hadvance := Cursor.length_advance_lt hne
    have hheading := c.advance.suffix_advance.length_le
    have hbody := (suffix_readCloseSquare s c.advance.advance d).length_le
    rw [(Prod.mk.inj h).2] at hbody
    exact hbody.trans_lt (hheading.trans_lt hadvance)
  | case4 c d hne hopen hmalformed ih =>
    have hadvance := Cursor.length_advance_lt hne
    have hsection := c.advance.length_toSection_le
    have hrest := ih h
    omega

theorem stop_readCloseSquare (s : Section) (c : Cursor) (d : Draft) :
    (readCloseSquare s c d).1.stop = c.stop := by
  unfold readCloseSquare
  split
  · exact c.stop_advance
  · rfl

/-- The closing bracket is part of the section. -/
theorem readCloseSquare_inSection (s : Section) (d : Draft) (hstop : c.stop.kind = .endOfFile) :
    readCloseSquare s c.inSection d =
      ((readCloseSquare s c d).1.inSection, (readCloseSquare s c d).2) := by
  have hat : c.inSection.isAt .closeSquare = c.isAt .closeSquare := by
    rw [Cursor.isAt, Cursor.current_inSection, Cursor.isAt]
  by_cases hclose : c.isAt .closeSquare = true
  · have hsection := not_atSection_of_isAt hstop hclose (by decide)
    simp only [readCloseSquare, hat, if_pos hclose, Cursor.advance_inSection hsection]
  · simp only [readCloseSquare, hat, if_neg hclose, Cursor.current_inSection]

theorem pieces_readCloseSquare (s : Section) (d : Draft) (hstop : c.stop.kind = .endOfFile) :
    (readCloseSquare s c d).1.pieces = c.pieces := by
  unfold readCloseSquare
  split
  · rename_i hclose
    exact Cursor.pieces_advance (not_atSection_of_isAt hstop hclose (by decide))
  · rfl

/-! ## Pieces -/

/-- A piece without a heading is reported and does nothing else. -/
theorem readChunk_of_malformed {chunk : Chunk} {p : Progress}
    (h : ∀ s id, chunk.cursor.current.kind = .heading s id → False) :
    p.readChunk reported limit chunk =
      ⟨p.due, p.draft.report ((Fault.expectedHeading chunk.cursor.current).on
        chunk.cursor.current)⟩ := by
  rw [readChunk_eq]
  split
  · rename_i s id hkind
    exact absurd hkind (h s id)
  · rfl

/-- A piece with a heading is entered behind its header. -/
theorem readChunk_of_heading {chunk : Chunk} {p : Progress} {s : Section} {id : NameId}
    (h : chunk.cursor.current.kind = .heading s id) :
    p.readChunk reported limit chunk =
      Progress.enter ⟨p.due, (readCloseSquare s chunk.cursor.advance p.draft).2⟩ reported limit s
        chunk.cursor.current (readCloseSquare s chunk.cursor.advance p.draft).1 := by
  rw [readChunk_eq]
  simp only [h, readCloseSquare]
  split <;> rfl

/-- Where no header is left, the search for one does what the pieces do that it passes. -/
theorem readHeader_none (reported due : List Section) (limit : Nat) (hc : c.AtSection)
    (hstop : c.stop.kind = .endOfFile) (h : readHeader c d = (none, c', d')) :
    c'.ahead = [] ∧ c'.stop = c.stop ∧
      c.pieces.foldl (Progress.readChunk reported limit) ⟨due, d⟩ = ⟨due, d'⟩ := by
  fun_induction readHeader c d with
  | case1 c d hnil =>
    cases h
    exact ⟨hnil, rfl, by rw [Cursor.pieces_of_nil hnil]; rfl⟩
  | case2 c d hne hopen =>
    rcases hc with hnil | hopen'
    · exact absurd hnil hne
    · simp [hopen'] at hopen
  | case3 => cases h
  | case4 c d hne hopen hmalformed ih =>
    obtain ⟨chunk, hpieces, hchunk⟩ := exists_open hne hopen
    have hcurrent : chunk.cursor.current = c.advance.current := by
      rw [hchunk, Cursor.current_inSection]
    have hstop' : c.advance.toSection.stop = c.stop := by
      rw [Cursor.stop_toSection, Cursor.stop_advance]
    obtain ⟨hend, hcstop, hfold⟩ :=
      ih (Cursor.atSection_toSection _) (hstop'.symm ▸ hstop) h
    rw [Cursor.pieces_toSection] at hfold
    refine ⟨hend, hcstop.trans hstop', ?_⟩
    rw [hpieces, List.foldl_cons, readChunk_of_malformed (by rwa [hcurrent]), hcurrent, hfold]

/-- A header that is found is that of the first piece that has one. -/
theorem readHeader_some {s : Section} {t : Token} (reported due : List Section) (limit : Nat)
    (hstop : c.stop.kind = .endOfFile) (h : readHeader c d = (some (s, t), c', d')) :
    c'.stop = c.stop ∧
      c.pieces.foldl (Progress.readChunk reported limit) ⟨due, d⟩ =
        c'.pieces.foldl (Progress.readChunk reported limit)
          (Progress.enter ⟨due, d'⟩ reported limit s t c'.inSection) := by
  fun_induction readHeader c d with
  | case1 => cases h
  | case2 => cases h
  | case3 c d hne hopen s' id hkind =>
    obtain ⟨hheader, hbody⟩ := Prod.mk.inj h
    obtain ⟨rfl, rfl⟩ := Prod.mk.inj (Option.some.inj hheader)
    obtain ⟨rfl, rfl⟩ := Prod.ext_iff.1 hbody
    obtain ⟨chunk, hpieces, hchunk⟩ := exists_open hne hopen
    have hcurrent : chunk.cursor.current = c.advance.current := by
      rw [hchunk, Cursor.current_inSection]
    have hstop' : c.advance.stop.kind = .endOfFile := by rwa [Cursor.stop_advance]
    have hstop'' : c.advance.advance.stop.kind = .endOfFile := by rwa [Cursor.stop_advance]
    have hheading := not_atSection_of_heading hstop' hkind
    refine ⟨by rw [stop_readCloseSquare, Cursor.stop_advance, Cursor.stop_advance], ?_⟩
    rw [hpieces, List.foldl_cons, readChunk_of_heading (hcurrent ▸ hkind), hcurrent, hchunk,
      Cursor.advance_inSection hheading, readCloseSquare_inSection _ _ hstop'',
      pieces_readCloseSquare _ _ hstop'', Cursor.pieces_advance hheading]
  | case4 c d hne hopen hmalformed ih =>
    obtain ⟨chunk, hpieces, hchunk⟩ := exists_open hne hopen
    have hcurrent : chunk.cursor.current = c.advance.current := by
      rw [hchunk, Cursor.current_inSection]
    have hstop' : c.advance.toSection.stop = c.stop := by
      rw [Cursor.stop_toSection, Cursor.stop_advance]
    obtain ⟨hcstop, hfold⟩ := ih (hstop'.symm ▸ hstop) h
    rw [Cursor.pieces_toSection] at hfold
    refine ⟨hcstop.trans hstop', ?_⟩
    rw [hpieces, List.foldl_cons, readChunk_of_malformed (by rwa [hcurrent]), hcurrent, hfold]

/-! ## Sections in order -/

/-- A reader that goes through a file once. -/
structure FileReader where
  cursor : Cursor
  /-- A header that has been passed and belongs to a later section, and its heading. -/
  pending : Option (Section × Token) := none
  draft : Draft

namespace FileReader

/-- The next header: the one that has been kept, or else the next one of the file. Also says
whether the section is known to be missing by then, as tokens that do not belong to any section
are reported in its place. -/
def nextHeader (s : Section) (reported : Bool) (r : FileReader) :
    Option (Section × Token) × Bool × Cursor × Draft :=
  match r.pending with
  | some header => (some header, reported, r.cursor, r.draft)
  | none =>
    if r.cursor.AtSection then
      let (header, body) := readHeader r.cursor r.draft
      (header, reported, body)
    else
      let t := r.cursor.current
      let d := r.draft.report ((Fault.expectedSection s t).on t)
      let (header, body) := readHeader r.cursor.toSection d
      (header, true, body)

/-- What is left to be read: the tokens, and the header that has been kept. -/
def left (r : FileReader) : Nat := 2 * r.cursor.ahead.length + r.pending.toList.length

theorem length_nextHeader_lt {s : Section} {reported reported' : Bool} {r : FileReader}
    {header : Section × Token} (h : r.nextHeader s reported = (some header, reported', c', d')) :
    2 * c'.ahead.length < r.left := by
  unfold nextHeader at h
  split at h
  · rename_i hpending
    cases h
    simp [left, hpending]
  · dsimp only at h
    split at h
    · generalize hread : readHeader r.cursor r.draft = x at h
      obtain ⟨header', body⟩ := x
      cases h
      have hlength := length_readHeader_lt hread
      simp only [left]
      omega
    · generalize hread : readHeader r.cursor.toSection _ = x at h
      obtain ⟨header', body⟩ := x
      cases h
      have hlength := length_readHeader_lt hread
      have hsection := r.cursor.length_toSection_le
      simp only [left]
      omega

/-- Gives a section its turn. Headers of earlier sections are reported and passed, up to the header
of the section itself, whose lines are then read, or of a later one, which is kept. -/
def readSection (limit : Nat) (s : Section) (reported : Bool) (r : FileReader) : FileReader :=
  match _h : r.nextHeader s reported with
  | (some (found, t), reported, c, d) =>
    if found = s then ⟨c.toSection, none, readLines s limit limit c.inSection d⟩
    else if s.rank < found.rank then
      let missing := (Fault.missingSection s (some found)).on t
      ⟨c, some (found, t), if reported then d else d.report missing⟩
    else
      readSection limit s reported
        ⟨c.toSection, none, d.report ((Fault.misplacedSection found).on t)⟩
  | (none, reported, c, d) =>
    let missing := (Fault.missingSection s none).on c.current
    ⟨c, none, if reported then d else d.report missing⟩
termination_by r.left
decreasing_by
  have hlength := length_nextHeader_lt _h
  have hsection := c.length_toSection_le
  simp only [left, Option.toList_none, List.length_nil] at hlength ⊢
  omega

end FileReader

/-- Reads what comes after the sections: all further headers are out of place. -/
def readRest (c : Cursor) (d : Draft) : Draft :=
  match _h : readHeader c d with
  | (some (s, t), c, d) => readRest c.toSection (d.report ((Fault.misplacedSection s).on t))
  | (none, _, d) => d
termination_by c.ahead.length
decreasing_by exact Nat.lt_of_le_of_lt (Cursor.length_toSection_le _) (length_readHeader_lt _h)

/-- Reads a whole file in order. A header that is still kept when all sections have had their turn
is an error. -/
def readInOrder (limit : Nat) (tokens : List Token) (finish : Token) (d : Draft) :
    Except (Section × Token) Draft :=
  let start : FileReader := ⟨⟨tokens.headD finish, tokens, finish⟩, none, d⟩
  let r := Section.all.foldl (fun r s => r.readSection limit s false) start
  match r.pending with
  | some header => .error header
  | none => .ok (readRest r.cursor r.draft)

/-! ## Both readings agree -/

/-- Reports the sections that have not come by the end of the file. -/
def Progress.close (reported : List Section) (finish : Token) (p : Progress) : Draft :=
  (p.due.filter (!reported.contains ·)).foldl
    (fun d m => d.report ((Fault.missingSection m none).on finish)) p.draft

theorem Progress.close_nil (reported : List Section) (finish : Token) (d : Draft) :
    Progress.close reported finish ⟨[], d⟩ = d := rfl

theorem Progress.close_cons (reported : List Section) (finish : Token) (s : Section)
    (rest : List Section) (d : Draft) :
    Progress.close reported finish ⟨s :: rest, d⟩ =
      Progress.close reported finish ⟨rest,
        if reported.contains s then d else d.report ((Fault.missingSection s none).on finish)⟩ := by
  by_cases hs : s ∈ reported <;> simp [close, hs]

/-- A section that is passed over is missing. -/
theorem enter_cons {s found : Section} {rest : List Section} {t : Token} {body : Cursor}
    (hne : found ≠ s) (hfound : found ∈ rest) :
    Progress.enter ⟨s :: rest, d⟩ reported limit found t body =
      Progress.enter ⟨rest,
        if reported.contains s then d
        else d.report ((Fault.missingSection s (some found)).on t)⟩ reported limit found t body := by
  have hs : (s != found) = true := bne_iff_ne.2 hne.symm
  by_cases hr : s ∈ reported <;> simp [Progress.enter, hfound, hs, hr]

theorem enter_misplaced {due : List Section} {s : Section} {t : Token} {body : Cursor}
    (hs : s ∉ due) :
    Progress.enter ⟨due, d⟩ reported limit s t body =
      ⟨due, d.report ((Fault.misplacedSection s).on t)⟩ := by
  simp [Progress.enter, hs]

namespace FileReader

/-- What comes of a file when a reader has come this far, and the given sections are due. -/
def outcome (reported : List Section) (limit : Nat) (due : List Section) (r : FileReader) :
    Draft :=
  let p : Progress :=
    match r.pending with
    | none => ⟨due, r.draft⟩
    | some (s, t) => Progress.enter ⟨due, r.draft⟩ reported limit s t r.cursor.inSection
  (r.cursor.pieces.foldl (Progress.readChunk reported limit) p).close reported r.cursor.stop

/-- The reader is where it has to be when the first of the given sections gets its turn. -/
structure Ready (due : List Section) (r : FileReader) : Prop where
  stop : r.cursor.stop.kind = .endOfFile
  atSection : r.pending = none → r.cursor.AtSection
  due : ∀ {s t}, r.pending = some (s, t) → s ∈ due

variable {r : FileReader} {s : Section} {due rest : List Section} {b b' : Bool}

theorem Ready.of_atSection (hstop : c.stop.kind = .endOfFile) (hc : c.AtSection) :
    Ready due ⟨c, none, d⟩ :=
  ⟨hstop, fun _ => hc, fun h => by cases h⟩

theorem nextHeader_some {found : Section} {t : Token} (reported : List Section) (limit : Nat)
    (hr : r.Ready due) (h : r.nextHeader s b = (some (found, t), b', c', d')) :
    b' = b ∧ c'.stop = r.cursor.stop ∧
      r.outcome reported limit due = outcome reported limit due ⟨c', some (found, t), d'⟩ := by
  unfold nextHeader at h
  split at h
  · rename_i hpending
    cases h
    exact ⟨rfl, rfl, by simp only [outcome, hpending]⟩
  · rename_i hpending
    rw [if_pos (hr.atSection hpending)] at h
    generalize hread : readHeader r.cursor r.draft = x at h
    obtain ⟨header, body⟩ := x
    cases h
    obtain ⟨hstop, hfold⟩ := readHeader_some reported due limit hr.stop hread
    exact ⟨rfl, hstop, by simp only [outcome, hpending, hfold, hstop]⟩

theorem nextHeader_none (reported : List Section) (limit : Nat) (hr : r.Ready due)
    (h : r.nextHeader s b = (none, b', c', d')) :
    b' = b ∧ c'.stop = r.cursor.stop ∧ c'.ahead = [] ∧
      r.outcome reported limit due = outcome reported limit due ⟨c', none, d'⟩ := by
  unfold nextHeader at h
  split at h
  · cases h
  · rename_i hpending
    have hat := hr.atSection hpending
    rw [if_pos hat] at h
    generalize hread : readHeader r.cursor r.draft = x at h
    obtain ⟨header, body⟩ := x
    cases h
    obtain ⟨hend, hstop, hfold⟩ := readHeader_none reported due limit hat hr.stop hread
    refine ⟨rfl, hstop, hend, ?_⟩
    simp only [outcome, hpending, hfold, hstop, Cursor.pieces_of_nil hend, List.foldl_nil]

/-- When a section has had its turn, the same comes of the file. -/
theorem Ready.readSection_outcome (limit : Nat) (hdue : ∀ m, m ∈ s :: rest ↔ s.rank ≤ m.rank)
    (hreported : reported.contains s = b) (hr : r.Ready (s :: rest)) :
    (r.readSection limit s b).Ready rest ∧
      (r.readSection limit s b).outcome reported limit rest =
        r.outcome reported limit (s :: rest) := by
  fun_induction readSection limit s b r with
  | case1 b r t b' c d h =>
    obtain ⟨rfl, hstop, houtcome⟩ := nextHeader_some reported limit hr h
    refine ⟨.of_atSection ?_ c.atSection_toSection, ?_⟩
    · rw [Cursor.stop_toSection, hstop]
      exact hr.stop
    · rw [houtcome]
      simp only [outcome, Cursor.pieces_toSection, Cursor.stop_toSection, enter_next]
  | case2 b r found t b' c d h hne hlater missing =>
    obtain ⟨rfl, hstop, houtcome⟩ := nextHeader_some reported limit hr h
    have hfound : found ∈ rest :=
      (List.mem_cons.1 ((hdue found).2 (Nat.le_of_lt hlater))).resolve_left hne
    refine ⟨⟨hstop ▸ hr.stop, (fun h => by cases h), fun h => ?_⟩, ?_⟩
    · cases h
      exact hfound
    · rw [houtcome]
      simp only [outcome, enter_cons hne hfound, hreported, missing]
  | case3 b r found t b' c d h hne hearlier ih =>
    obtain ⟨rfl, hstop, houtcome⟩ := nextHeader_some reported limit hr h
    have hfound : found ∉ s :: rest := by
      rw [hdue]
      have hrank : found.rank ≠ s.rank := fun h => hne (Section.rank_injective h)
      omega
    have hstop' : c.toSection.stop.kind = .endOfFile := by
      rw [Cursor.stop_toSection, hstop]
      exact hr.stop
    obtain ⟨hready, heq⟩ := ih hreported (.of_atSection hstop' c.atSection_toSection)
    refine ⟨hready, ?_⟩
    rw [heq, houtcome]
    simp only [outcome, enter_misplaced hfound, Cursor.pieces_toSection, Cursor.stop_toSection]
  | case4 b r b' c d h missing =>
    obtain ⟨rfl, hstop, hend, houtcome⟩ := nextHeader_none reported limit hr h
    have hcurrent : c.current = c.stop := by rw [Cursor.current, hend, List.headD_nil]
    refine ⟨.of_atSection (hstop ▸ hr.stop) (.inl hend), ?_⟩
    rw [houtcome]
    simp only [outcome, Cursor.pieces_of_nil hend, List.foldl_nil, Progress.close_cons, hreported,
      missing, hcurrent]

end FileReader

theorem readRest_outcome (reported : List Section) (limit : Nat) (hc : c.AtSection)
    (hstop : c.stop.kind = .endOfFile) :
    FileReader.outcome reported limit [] ⟨c, none, d⟩ = readRest c d := by
  fun_induction readRest c d with
  | case1 c d s t c' d' h ih =>
    obtain ⟨hcstop, hfold⟩ := readHeader_some reported [] limit hstop h
    rw [← ih c'.atSection_toSection (by rw [Cursor.stop_toSection, hcstop]; exact hstop)]
    simp only [FileReader.outcome, hfold, enter_misplaced List.not_mem_nil,
      Cursor.pieces_toSection, Cursor.stop_toSection, hcstop]
  | case2 c d c' d' h =>
    obtain ⟨hend, hcstop, hfold⟩ := readHeader_none reported [] limit hc hstop h
    simp only [FileReader.outcome, hfold, Progress.close_nil]

/-- Tokens that stand in the place of a section are reported in its place. -/
theorem FileReader.readSection_of_not_atSection {s : Section} (limit : Nat) (hc : ¬c.AtSection) :
    readSection limit s false ⟨c, none, d⟩ =
      readSection limit s true
        ⟨c.toSection, none, d.report ((Fault.expectedSection s c.current).on c.current)⟩ := by
  have hnext : nextHeader s false ⟨c, none, d⟩ = nextHeader s true
      ⟨c.toSection, none, d.report ((Fault.expectedSection s c.current).on c.current)⟩ := by
    simp only [nextHeader, if_neg hc, if_pos c.atSection_toSection]
  rw [readSection, readSection]
  generalize nextHeader s false _ = x at hnext ⊢
  subst hnext
  rfl

theorem readFile_of_atSection (limit : Nat) (hc : c.AtSection) :
    readFile limit c.ahead c.stop d =
      FileReader.outcome [] limit Section.all ⟨c, none, d⟩ := by
  have hbefore : (chunks c.stop c.ahead).1 = [] := by
    rw [fst_chunks]
    rcases Cursor.atSection_iff.1 hc with hc | ⟨t, rest, hc, ht⟩
    · simp [hc]
    · simp [hc, ht]
  simp only [readFile, hbefore, if_true]
  rfl

theorem readFile_of_not_atSection (limit : Nat) (hc : ¬c.AtSection) :
    readFile limit c.ahead c.stop d =
      FileReader.outcome [.devices] limit Section.all ⟨c.toSection, none,
        d.report ((Fault.expectedSection .devices c.current).on c.current)⟩ := by
  obtain ⟨t, rest, hahead, ht⟩ := Cursor.not_atSection_iff.1 hc
  have hbefore : (chunks c.stop c.ahead).1 = t :: (chunks c.stop rest).1 := by
    simp [hahead, chunks, ht]
  simp only [FileReader.outcome, Cursor.pieces_toSection, Cursor.stop_toSection]
  simp only [readFile, hbefore, Cursor.current_cons hahead]
  rfl

/-- When all sections have had their turn, no header is left over. -/
theorem turns_outcome {r r' : FileReader} {b : Bool} (limit : Nat)
    (hdevices : reported.contains .devices = b) (hconns : reported.contains .conns = false)
    (hmonit : reported.contains .monit = false) (hr : r.Ready Section.all)
    (h : [Section.conns, .monit].foldl (fun r s => r.readSection limit s false)
      (r.readSection limit .devices b) = r') :
    r'.pending = none ∧ readRest r'.cursor r'.draft = r.outcome reported limit Section.all := by
  obtain ⟨hready, hdevices⟩ :=
    hr.readSection_outcome limit (fun m => by cases m <;> decide) hdevices
  obtain ⟨hready, hconns⟩ :=
    hready.readSection_outcome limit (fun m => by cases m <;> decide) hconns
  obtain ⟨hready, hmonit⟩ :=
    hready.readSection_outcome limit (fun m => by cases m <;> decide) hmonit
  rw [List.foldl_cons, List.foldl_cons, List.foldl_nil] at h
  rw [h] at hready hmonit
  have hpending : r'.pending = none := by
    cases hp : r'.pending with
    | none => rfl
    | some header => exact absurd (hready.due hp) List.not_mem_nil
  have hrest := readRest_outcome (d := r'.draft) reported limit (hready.atSection hpending)
    hready.stop
  rw [← hpending] at hrest
  exact ⟨hpending, hrest.symm.trans (hmonit.trans (hconns.trans hdevices))⟩

/-- **Order.** No header is left over when all sections have had their turn, and a file that is
read in order is read as it is when it is cut into pieces first. -/
theorem readInOrder_eq (limit : Nat) (tokens : List Token) {finish : Token} (d : Draft)
    (hfinish : finish.kind = .endOfFile) :
    readInOrder limit tokens finish d = .ok (readFile limit tokens finish d) := by
  set c : Cursor := ⟨tokens.headD finish, tokens, finish⟩ with hc
  have hturns : ∃ r', Section.all.foldl (fun r s => FileReader.readSection limit s false r)
      ⟨c, none, d⟩ = r' ∧ r'.pending = none ∧
        readRest r'.cursor r'.draft = readFile limit tokens finish d := by
    refine ⟨_, rfl, ?_⟩
    rw [Section.all, List.foldl_cons]
    by_cases hat : c.AtSection
    · have hready : FileReader.Ready Section.all ⟨c, none, d⟩ := .of_atSection hfinish hat
      rw [show readFile limit tokens finish d = _ from readFile_of_atSection limit hat]
      exact turns_outcome limit rfl rfl rfl hready rfl
    · have hready : FileReader.Ready Section.all ⟨c.toSection, none,
          d.report ((Fault.expectedSection .devices c.current).on c.current)⟩ :=
        .of_atSection (c.stop_toSection ▸ hfinish) c.atSection_toSection
      rw [show readFile limit tokens finish d = _ from readFile_of_not_atSection limit hat,
        FileReader.readSection_of_not_atSection limit hat]
      exact turns_outcome limit rfl rfl rfl hready rfl
  obtain ⟨r', hr', hpending, hrest⟩ := hturns
  simp only [readInOrder, ← hc, hr', hpending, hrest]

end Breadboard.Definition
