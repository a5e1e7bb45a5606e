import Breadboard.Proofs.Definition.ConnectionLines
import Breadboard.Proofs.Definition.DeviceLines
import Breadboard.Proofs.Definition.DiagnosticOrder
import Breadboard.Proofs.Definition.InOrder
import Breadboard.Proofs.Definition.MonitorLines

/-!
# Lines read in their file

The readers of lines are given the tokens of one section, which they cannot leave, and a line that is
given up is skipped from its start. Here the same lines are read with one token of lookahead in the
whole file: a reader that fails stands where it has come to, and the rest of the line is skipped
from there. That it stays in its section, and that it neither stops short of the semicolon of its
line nor goes on behind it, is then a matter of what it does.

* `Cursor.Walks.inSection`: tokens of a line are passed in the file as they are in its section.
* `readReference_follows`, `readTarget_follows`, `readKind_follows`, `readNames_follows`: the parts of
  a line are the same in the file.
* `readLine_follows`: so is the line, and it ends in one of three ways.
-/
namespace Breadboard.Definition

namespace Cursor

/-- The second cursor is behind some tokens of the same section of which none is a semicolon. -/
structure Walks (c : Cursor) (ts : List Token) (c' : Cursor) : Prop extends c.Passes ts c' where
  inside : ∀ t ∈ ts, t.isMark .openSquare = false

variable {c c' c'' : Cursor} {ts ts' : List Token}

namespace Walks

theorem refl (c : Cursor) : c.Walks [] c := ⟨.refl c, fun _ h => absurd h List.not_mem_nil⟩

theorem trans (h : c.Walks ts c') (h' : c'.Walks ts' c'') : c.Walks (ts ++ ts') c'' :=
  ⟨h.toPasses.trans h'.toPasses, List.forall_mem_append.2 ⟨h.inside, h'.inside⟩⟩

theorem length_le (h : c.Walks ts c') : c'.ahead.length ≤ c.ahead.length := by
  rw [h.ahead, List.length_append]
  exact Nat.le_add_left _ _

theorem ne_nil_of_length_lt (h : c.Walks ts c') (hlt : c'.ahead.length < c.ahead.length) :
    ts ≠ [] := by
  rintro rfl
  rw [h.ahead] at hlt
  exact Nat.lt_irrefl _ hlt

/-- The next section is the same from all tokens of a line. -/
theorem toSection_eq (h : c.Walks ts c') : c'.toSection = c.toSection := by
  induction ts generalizing c with
  | nil => rw [h.eq_of_nil]
  | cons t ts ih =>
    obtain ⟨ht, hts⟩ := List.forall_mem_cons.1 h.inside
    have hat : ¬c.AtSection := not_atSection_iff.2 ⟨t, _, h.ahead, ht⟩
    rw [ih ⟨h.of_cons, hts⟩, toSection_advance hat]

/-- Tokens of a line are passed in the file as they are in its section. -/
theorem inSection (h : c.Walks ts c') : c.inSection.Passes ts c'.inSection where
  stop := by
    show c'.toSection.current = c.toSection.current
    rw [h.toSection_eq]
  ahead := by
    rw [ahead_inSection, ahead_inSection, h.ahead, List.takeWhile_append_of_pos]
    simpa using h.inside
  previous := h.previous
  plain := h.plain

end Walks

theorem ahead_inSection_eq_nil_iff : c.inSection.ahead = [] ↔ c.AtSection := by
  rw [ahead_inSection, atSection_iff]
  cases c.ahead <;> simp

theorem stop_inSection (h : c.AtSection) : c.inSection.stop = c.current := by
  show c.toSection.current = c.current
  rw [toSection_of_atSection h]

theorem ahead_inSection_cons {t : Token} {rest : List Token} (hahead : c.ahead = t :: rest)
    (hopen : t.isMark .openSquare = false) :
    c.inSection.ahead = t :: rest.takeWhile (!·.isMark .openSquare) := by
  rw [ahead_inSection, hahead, List.takeWhile_cons_of_pos (by simp [hopen])]

@[simp]
theorem isAt_inSection (c : Cursor) (m : Mark) : c.inSection.isAt m = c.isAt m := by
  rw [isAt, current_inSection, isAt]

/-- A token other than an opening square bracket is passed in the file as it is in its section. -/
theorem inSection_advance (h : c.current.isMark .openSquare = false) :
    c.inSection.advance = c.advance.inSection := by
  by_cases hat : c.AtSection
  · have hend : c.ahead = [] := hat.resolve_right (by simp [isAt, h])
    have hstay : c.advance = c := by simp only [advance, hend]
    have hstay' : c.inSection.ahead = [] := by rw [ahead_inSection, hend, List.takeWhile_nil]
    rw [hstay]
    simp only [advance, hstay']
  · exact advance_inSection hat

theorem walks_cons {t : Token} {rest : List Token} (hahead : c.ahead = t :: rest)
    (hopen : t.isMark .openSquare = false) (hsemicolon : t.isMark .semicolon = false) :
    c.Walks [t] c.advance := by
  rw [advance_cons hahead]
  exact ⟨⟨rfl, hahead, rfl, List.forall_mem_singleton.2 hsemicolon⟩,
    List.forall_mem_singleton.2 hopen⟩

theorem walks_advance (hopen : c.current.isMark .openSquare = false)
    (hsemicolon : c.current.isMark .semicolon = false) : ∃ ts, c.Walks ts c.advance := by
  cases hahead : c.ahead with
  | nil =>
    have hstay : c.advance = c := by simp only [advance, hahead]
    exact ⟨[], hstay.symm ▸ .refl c⟩
  | cons t rest =>
    rw [current_cons hahead] at hopen hsemicolon
    exact ⟨[t], walks_cons hahead hopen hsemicolon⟩

end Cursor

/-! ## Ends of lines -/

/-- Skips the rest of a line: up to and over its semicolon, or up to the next section. -/
def InFile.skipLine (c : Cursor) : Cursor :=
  if c.AtSection then c
  else if c.isAt .semicolon then c.advance
  else InFile.skipLine c.advance
termination_by c.ahead.length
decreasing_by exact Cursor.length_advance_lt fun hnil => ‹¬c.AtSection› (Or.inl hnil)

/-- Gives a line up where its reader has come to, and skips the rest of it. -/
def InFile.abandonLine (d : Draft) (c : Cursor) (i : Issue) : Cursor × Draft :=
  (InFile.skipLine c, d.report i)

/-- Ends a line at its semicolon. -/
def InFile.endLine (d : Draft) (c : Cursor) : Cursor × Draft :=
  if c.isAt .semicolon then (c.advance, d)
  else if c.previous.position.line < c.current.position.line then
    (c, d.report ((Fault.missingSemicolon c.previous).on c.previous))
  else (InFile.skipLine c, d.report ((Fault.expectedSemicolon c.current).on c.current))

/-- Where a line ends that is read from a cursor on. -/
inductive EndsLine (c : Cursor) (d : Draft) : Cursor × Draft → Prop where
  /-- Behind the first semicolon. -/
  | semicolon {ts : List Token} {c' : Cursor} {d' : Draft} :
      c.Walks ts c' → ¬c'.AtSection → c'.isAt .semicolon = true → EndsLine c d (c'.advance, d')
  /-- At the next section, or at the end of the file. -/
  | atSection {ts : List Token} {c' : Cursor} {d' : Draft} :
      c.Walks ts c' → c'.AtSection → EndsLine c d (c', d')
  /-- At a token on a later line of the text, where the semicolon is reported to be missing. -/
  | nextLine {ts : List Token} {c' : Cursor} {d' : Draft} :
      c.Walks ts c' → ts ≠ [] → c'.isAt .semicolon = false →
        c'.previous.position.line < c'.current.position.line → d.Leads d' →
          EndsLine c d (c', d'.report ((Fault.missingSemicolon c'.previous).on c'.previous))

variable {c c' : Cursor} {ts : List Token} {d d' : Draft}

theorem EndsLine.behind {x : Cursor × Draft} (hwalks : c.Walks ts c') (hleads : d.Leads d')
    (h : EndsLine c' d' x) : EndsLine c d x := by
  cases h with
  | semicolon hwalks' hat hsemicolon => exact .semicolon (hwalks.trans hwalks') hat hsemicolon
  | atSection hwalks' hat => exact .atSection (hwalks.trans hwalks') hat
  | nextLine hwalks' hts hsemicolon hline hleads' =>
    exact .nextLine (hwalks.trans hwalks') (List.append_ne_nil_of_right_ne_nil _ hts) hsemicolon
      hline (hleads.trans hleads')

/-- A line is read in the file as it is in its section. -/
structure FollowsLine (c : Cursor) (d : Draft) (x y : Cursor × Draft) : Prop where
  ends : EndsLine c d x
  agrees : y = (x.1.inSection, x.2)

theorem FollowsLine.behind {x y : Cursor × Draft} (hwalks : c.Walks ts c') (hleads : d.Leads d')
    (h : FollowsLine c' d' x y) : FollowsLine c d x y :=
  ⟨h.ends.behind hwalks hleads, h.agrees⟩

/-- The rest of a line is skipped in the file as it is in its section. -/
theorem skipLine_follows (c : Cursor) (d d' : Draft) :
    FollowsLine c d (InFile.skipLine c, d') (c.inSection.skipLine, d') := by
  fun_induction InFile.skipLine c with
  | case1 c hat =>
    refine ⟨.atSection (.refl c) hat, ?_⟩
    rw [Cursor.skipLine, if_pos (Cursor.ahead_inSection_eq_nil_iff.2 hat)]
  | case2 c hat hsemicolon =>
    refine ⟨.semicolon (.refl c) hat hsemicolon, ?_⟩
    rw [Cursor.skipLine, if_neg (mt Cursor.ahead_inSection_eq_nil_iff.1 hat),
      if_pos (by rwa [Cursor.isAt_inSection]), Cursor.advance_inSection hat]
  | case3 c hat hsemicolon ih =>
    have hopen : c.current.isMark .openSquare = false := by
      rw [← Bool.not_eq_true]
      exact fun hopen => hat (.inr hopen)
    obtain ⟨ts, hwalks⟩ := c.walks_advance hopen (Bool.eq_false_iff.2 hsemicolon)
    rw [Cursor.skipLine, if_neg (mt Cursor.ahead_inSection_eq_nil_iff.1 hat),
      if_neg (by rwa [Cursor.isAt_inSection]), Cursor.advance_inSection hat]
    exact ih.behind hwalks (.refl d)

theorem Cursor.Walks.abandonLine_eq (h : c.Walks ts c') (d : Draft) (i : Issue) :
    d.abandonLine c'.inSection i = d.abandonLine c.inSection i := by
  rw [Draft.abandonLine, Draft.abandonLine, h.inSection.skipLine_eq]

theorem abandonLine_follows (c : Cursor) (d : Draft) (i : Issue) :
    FollowsLine c d (InFile.abandonLine d c i) (d.abandonLine c.inSection i) :=
  skipLine_follows c d (d.report i)

theorem endLine_follows (hwalks : c.Walks ts c') (hts : ts ≠ []) (hleads : d.Leads d') :
    FollowsLine c d (InFile.endLine d' c') (d'.endLine c'.inSection) := by
  unfold InFile.endLine Draft.endLine
  rw [Cursor.isAt_inSection, Cursor.current_inSection]
  split
  · rename_i hsemicolon
    have hkind : c'.current.kind = .mark .semicolon := of_decide_eq_true hsemicolon
    have hopen : c'.current.isMark .openSquare = false := by simp [Token.isMark, hkind]
    refine ⟨?_, by rw [Cursor.inSection_advance hopen]⟩
    by_cases hat : c'.AtSection
    · have hend : c'.ahead = [] := hat.resolve_right (by simp [Cursor.isAt, hopen])
      have hstay : c'.advance = c' := by simp only [Cursor.advance, hend]
      rw [hstay]
      exact .atSection hwalks hat
    · exact .semicolon hwalks hat hsemicolon
  split
  · rename_i hsemicolon hline
    rw [if_pos (show c'.inSection.previous.position.line < _ from hline)]
    exact ⟨.nextLine hwalks hts (Bool.eq_false_iff.2 hsemicolon) hline hleads, rfl⟩
  · rename_i hsemicolon hline
    rw [if_neg (show ¬c'.inSection.previous.position.line < _ from hline)]
    exact (skipLine_follows c' d' _).behind hwalks hleads

/-! ## Parts of lines -/

namespace InFile

def readPin (device : NameId) (name : Token) (c : Cursor) : Cursor × Except Issue Reference :=
  let t := c.current
  match t.kind with
  | .mark .dot =>
    let c := c.advance
    let pin := c.current
    match pin.kind with
    | .name _ => (c.advance, .ok ⟨device, name, some pin⟩)
    | .number => (c, .error ((Fault.numberAsPin pin).on pin))
    | _ => (c, .error ((Fault.expectedPin pin).on pin))
  | .name _ => (c, .error ((Fault.missingDot name.text t.text).on t))
  | _ => (c, .ok ⟨device, name, none⟩)

def readReference (declared : List NameId) (c : Cursor) : Cursor × Except Issue Reference :=
  match c.ahead with
  | [] => (c, .error ((Fault.expectedName c.stop).on c.stop))
  | t :: _ =>
    match t.kind with
    | .name id =>
      if declared.contains id then readPin id t c.advance
      else (c, .error ((Fault.undeclared t.text).on t))
    | .logic _ _ => (c, .error ((Fault.reservedName t).on t))
    | _ => (c, .error ((Fault.expectedName t).on t))

def readTarget (d : Draft) (c : Cursor) : Cursor × Except Issue Target :=
  match readReference d.declared c with
  | (c, .error issue) => (c, .error issue)
  | (c, .ok r) =>
    match d.input r, d.device r with
    | .error issue, _ => (c, .error issue)
    | .ok _, .error issue => (c, .error issue)
    | .ok first, .ok device =>
      if c.isAt .equal then (c.advance, .ok ⟨r, first, device.gateInputs⟩)
      else (c, .error ((Fault.expectedEqual r.describe c.current).on c.current))

def readNames (names : List (NameId × Token)) (c : Cursor) (d : Draft) :
    Draft × Cursor × Except Issue (List (NameId × Token)) :=
  match _h : c.ahead with
  | [] => (d, c, .error ((Fault.expectedName c.stop).on c.stop))
  | t :: _ =>
    match d.takeName names t with
    | .error issue => (d, c, .error issue)
    | .ok (names, d) =>
      if c.advance.isAt .comma then readNames names c.advance.advance d
      else (d, c.advance, .ok names)
termination_by c.ahead.length
decreasing_by
  exact Nat.lt_of_le_of_lt c.advance.suffix_advance.length_le
    (Cursor.length_advance_lt (by simp [_h]))

def readParameter (c : Cursor) : Cursor × Except Issue (Option UInt32) :=
  if !c.isAt .openBracket then (c, .ok none)
  else
    let c := c.advance
    if c.current.kind ≠ .number then (c, .error ((Fault.expectedParameter c.current).on c.current))
    else
      match c.current.number? with
      | none => (c, .error ((Fault.numberTooLarge c.current).on c.current))
      | some value =>
        let c := c.advance
        if c.isAt .closeBracket then (c.advance, .ok (some value))
        else (c, .error ((Fault.unclosedParameter c.current).on c.current))

def readKind (c : Cursor) : Cursor × Except Issue (DeviceKind × Option UInt32) :=
  if !c.isAt .equal then (c, .error ((Fault.expectedEqualAfterNames c.current).on c.current))
  else
    let c := c.advance
    match c.current.kind with
    | .logic kind _ =>
      let (c, parameter) := readParameter c.advance
      (c, parameter.map (kind, ·))
    | _ => (c, .error ((Fault.expectedDeviceType c.current).on c.current))

end InFile

/-- A part of a line is read in the file as it is in its section. -/
structure Follows {α : Type} (c : Cursor) (x : Cursor × Except Issue α)
    (y : Except Issue (α × Cursor)) : Prop where
  walks : ∃ ts, c.Walks ts x.1
  agrees : y = x.2.map (·, x.1.inSection)

section

variable {α : Type} {x : Cursor × Except Issue α} {y : Except Issue (α × Cursor)}

theorem Follows.stay (c : Cursor) (r : Except Issue α) : Follows c (c, r) (r.map (·, c.inSection)) :=
  ⟨⟨[], .refl c⟩, rfl⟩

theorem Follows.behind (hwalks : c.Walks ts c') (h : Follows c' x y) : Follows c x y := by
  obtain ⟨⟨ts', hwalks'⟩, hagrees⟩ := h
  exact ⟨⟨_, hwalks.trans hwalks'⟩, hagrees⟩

end

theorem Token.isMark_eq_false {t : Token} {m : Mark} (h : t.kind ≠ .mark m) : t.isMark m = false := by
  simpa [isMark] using h

/-- A token that ends neither a line nor a section is passed in the file as it is in its section. -/
theorem Cursor.walks_of_kind (hopen : c.current.kind ≠ .mark .openSquare)
    (hsemicolon : c.current.kind ≠ .mark .semicolon) :
    (∃ ts, c.Walks ts c.advance) ∧ c.inSection.advance = c.advance.inSection :=
  ⟨c.walks_advance (Token.isMark_eq_false hopen) (Token.isMark_eq_false hsemicolon),
    c.inSection_advance (Token.isMark_eq_false hopen)⟩

theorem Cursor.walks_of_isAt {m : Mark} (h : c.isAt m = true) (hopen : m ≠ .openSquare)
    (hsemicolon : m ≠ .semicolon) :
    (∃ ts, c.Walks ts c.advance) ∧ c.inSection.advance = c.advance.inSection := by
  have hkind : c.current.kind = .mark m := of_decide_eq_true h
  exact c.walks_of_kind (by simpa [hkind] using hopen) (by simpa [hkind] using hsemicolon)

theorem readPin_follows (device : NameId) (name : Token) (c : Cursor) :
    Follows c (InFile.readPin device name c) (readPin device name c.inSection) := by
  simp only [InFile.readPin, readPin, Cursor.current_inSection]
  cases hkind : c.current.kind with
  | mark m =>
    cases m with
    | dot =>
      obtain ⟨⟨ts, hwalks⟩, hadvance⟩ := c.walks_of_kind (by simp [hkind]) (by simp [hkind])
      simp only [hadvance, Cursor.current_inSection]
      refine .behind hwalks ?_
      cases hpin : c.advance.current.kind with
      | name id =>
        obtain ⟨⟨us, hwalks'⟩, hadvance'⟩ :=
          c.advance.walks_of_kind (by simp [hpin]) (by simp [hpin])
        simp only [hadvance']
        exact .behind hwalks' (.stay _ _)
      | _ => exact .stay _ _
    | _ => exact .stay _ _
  | _ => exact .stay _ _

theorem readReference_follows (declared : List NameId) (c : Cursor) :
    Follows c (InFile.readReference declared c) (readReference declared c.inSection) := by
  by_cases hat : c.AtSection
  · have hmodel : readReference declared c.inSection =
        .error ((Fault.expectedName c.current).on c.current) := by
      unfold readReference
      rw [Cursor.ahead_inSection_eq_nil_iff.2 hat, Cursor.stop_inSection hat]
    have hfile : InFile.readReference declared c =
        (c, .error ((Fault.expectedName c.current).on c.current)) := by
      unfold InFile.readReference
      rcases Cursor.atSection_iff.1 hat with hahead | ⟨t, rest, hahead, ht⟩
      · rw [Cursor.current, hahead]
        rfl
      · have hkind : t.kind = .mark .openSquare := of_decide_eq_true ht
        rw [Cursor.current_cons hahead, hahead]
        simp only [hkind]
    rw [hmodel, hfile]
    exact .stay _ _
  · obtain ⟨t, rest, hahead, hopen⟩ := Cursor.not_atSection_iff.1 hat
    simp only [InFile.readReference, readReference, hahead,
      Cursor.ahead_inSection_cons hahead hopen]
    cases hkind : t.kind with
    | name id =>
      have hsemicolon : t.isMark .semicolon = false := Token.isMark_eq_false (by simp [hkind])
      simp only [Cursor.advance_inSection hat]
      split
      · exact .behind (Cursor.walks_cons hahead hopen hsemicolon) (readPin_follows id t c.advance)
      · exact .stay _ _
    | _ => exact .stay _ _

theorem readTarget_follows (d : Draft) (c : Cursor) :
    Follows c (InFile.readTarget d c) (readTarget d c.inSection) := by
  have hreference := readReference_follows d.declared c
  simp only [InFile.readTarget, readTarget, bind, Except.bind]
  generalize InFile.readReference d.declared c = x at hreference ⊢
  obtain ⟨c', result⟩ := x
  obtain ⟨⟨ts, hwalks⟩, hagrees⟩ := hreference
  rw [hagrees]
  refine .behind hwalks ?_
  cases result with
  | error issue => exact .stay _ _
  | ok r =>
    simp only [Except.map]
    cases d.input r with
    | error issue => exact .stay _ _
    | ok first =>
      cases d.device r with
      | error issue => exact .stay _ _
      | ok device =>
        simp only [Cursor.isAt_inSection, Cursor.current_inSection]
        split
        · rename_i hequal
          obtain ⟨⟨us, hwalks'⟩, hadvance⟩ := c'.walks_of_isAt hequal (by simp) (by simp)
          rw [hadvance]
          exact .behind hwalks' (.stay _ _)
        · exact .stay _ _

theorem readParameter_follows (c : Cursor) :
    Follows c (InFile.readParameter c) (readParameter c.inSection) := by
  simp only [InFile.readParameter, readParameter, Cursor.isAt_inSection]
  split
  · exact .stay _ _
  rename_i hopen
  rw [Bool.not_eq_true, Bool.not_eq_false'] at hopen
  obtain ⟨⟨ts, hwalks⟩, hadvance⟩ := c.walks_of_isAt hopen (by simp) (by simp)
  rw [hadvance, Cursor.current_inSection]
  refine .behind hwalks ?_
  split
  · exact .stay _ _
  rename_i hnumber
  rw [ne_eq, not_not] at hnumber
  obtain ⟨⟨us, hwalks'⟩, hadvance'⟩ :=
    c.advance.walks_of_kind (by simp [hnumber]) (by simp [hnumber])
  cases c.advance.current.number? with
  | none => exact .stay _ _
  | some value =>
    simp only [hadvance', Cursor.isAt_inSection, Cursor.current_inSection]
    refine .behind hwalks' ?_
    split
    · rename_i hclose
      obtain ⟨⟨vs, hwalks''⟩, hadvance''⟩ :=
        c.advance.advance.walks_of_isAt hclose (by simp) (by simp)
      rw [hadvance'']
      exact .behind hwalks'' (.stay _ _)
    · exact .stay _ _

theorem readKind_follows (c : Cursor) : Follows c (InFile.readKind c) (readKind c.inSection) := by
  simp only [InFile.readKind, readKind, Cursor.isAt_inSection, Cursor.current_inSection]
  split
  · exact .stay _ _
  rename_i hequal
  rw [Bool.not_eq_true, Bool.not_eq_false'] at hequal
  obtain ⟨⟨ts, hwalks⟩, hadvance⟩ := c.walks_of_isAt hequal (by simp) (by simp)
  rw [hadvance, Cursor.current_inSection]
  refine .behind hwalks ?_
  cases hkind : c.advance.current.kind with
  | logic kind id =>
    obtain ⟨⟨us, hwalks'⟩, hadvance'⟩ :=
      c.advance.walks_of_kind (by simp [hkind]) (by simp [hkind])
    obtain ⟨⟨vs, hwalks''⟩, hagrees⟩ := readParameter_follows c.advance.advance
    simp only [hadvance', hagrees]
    refine ⟨⟨_, hwalks'.trans hwalks''⟩, ?_⟩
    cases (InFile.readParameter c.advance.advance).2 <;> rfl
  | _ => exact .stay _ _

/-- Where no name is left in a section, none is read. -/
theorem readNames_atSection (names : List (NameId × Token)) (d : Draft) (hat : c.AtSection) :
    readNames names c.inSection d = (d, .error ((Fault.expectedName c.current).on c.current)) := by
  rw [readNames]
  split
  · rw [Cursor.stop_inSection hat]
  · rename_i t rest hahead
    rw [Cursor.ahead_inSection_eq_nil_iff.2 hat] at hahead
    cases hahead

/-- A name that is taken is passed in the file as it is in its section. -/
theorem readNames_taken {names names' : List (NameId × Token)} {t : Token} {rest : List Token}
    (hahead : c.ahead = t :: rest) (htake : d.takeName names t = .ok (names', d')) :
    c.Walks [t] c.advance ∧
      readNames names c.inSection d =
        if c.advance.isAt .comma then readNames names' c.advance.inSection.advance d'
        else (d', .ok (names', c.advance.inSection)) := by
  obtain ⟨⟨-, hmark⟩, -⟩ := takeName_finds htake
  have hopen : t.isMark .openSquare = false := Token.isMark_eq_false (hmark _)
  have hat : ¬c.AtSection := Cursor.not_atSection_iff.2 ⟨t, rest, hahead, hopen⟩
  refine ⟨Cursor.walks_cons hahead hopen (Token.isMark_eq_false (hmark _)), ?_⟩
  rw [readNames_cons (Cursor.ahead_inSection_cons hahead hopen), htake,
    Cursor.advance_inSection hat]
  simp only [Cursor.isAt_inSection]

/-- The names of a device line are read in the file as they are in its section. -/
theorem readNames_follows (names : List (NameId × Token)) (c : Cursor) (d : Draft) :
    (readNames names c.inSection d).1 = (InFile.readNames names c d).1 ∧
      Follows c (InFile.readNames names c d).2 (readNames names c.inSection d).2 := by
  fun_induction InFile.readNames names c d with
  | case1 names c d hahead =>
    rw [readNames_atSection names d (.inl hahead), Cursor.current, hahead]
    exact ⟨rfl, .stay _ _⟩
  | case2 names c d t rest hahead issue htake =>
    by_cases hopen : t.isMark .openSquare = true
    · have hkind : t.kind = .mark .openSquare := of_decide_eq_true hopen
      have hissue : (Fault.expectedName t).on t = issue := by
        simpa [Draft.takeName, hkind] using htake
      rw [readNames_atSection names d (Cursor.atSection_iff.2 (.inr ⟨t, rest, hahead, hopen⟩)),
        Cursor.current_cons hahead, hissue]
      exact ⟨rfl, .stay _ _⟩
    · have hmore := Cursor.ahead_inSection_cons hahead (Bool.eq_false_iff.2 hopen)
      rw [readNames_cons hmore, htake]
      exact ⟨rfl, .stay _ _⟩
  | case3 names c d t rest hahead names' d' htake hcomma ih =>
    obtain ⟨hwalks, htaken⟩ := readNames_taken hahead htake
    obtain ⟨⟨us, hwalks'⟩, hadvance⟩ := c.advance.walks_of_isAt hcomma (by simp) (by simp)
    rw [htaken, if_pos hcomma, hadvance]
    exact ⟨ih.1, .behind (hwalks.trans hwalks') ih.2⟩
  | case4 names c d t rest hahead names' d' htake hcomma =>
    obtain ⟨hwalks, htaken⟩ := readNames_taken hahead htake
    rw [htaken, if_neg hcomma]
    exact ⟨rfl, .behind hwalks (.stay _ _)⟩

namespace InFile

variable {declared : List NameId} {r : Reference}

theorem length_readReference_lt (h : readReference declared c = (c', .ok r)) :
    c'.ahead.length < c.ahead.length := by
  unfold readReference at h
  split at h
  · cases h
  rename_i t rest hahead
  split at h
  · rename_i id hname
    split at h
    · obtain ⟨ts, hwalks⟩ := (readPin_follows id t c.advance).walks
      rw [h] at hwalks
      exact hwalks.length_le.trans_lt (Cursor.length_advance_lt (by simp [hahead]))
    · cases h
  · cases h
  · cases h

theorem ok_of_readReference (h : readReference declared c = (c', .ok r)) :
    ∃ ts, c.Walks ts c' ∧ ts ≠ [] ∧
      Definition.readReference declared c.inSection = .ok (r, c'.inSection) := by
  obtain ⟨⟨ts, hwalks⟩, hagrees⟩ := readReference_follows declared c
  have hlength := length_readReference_lt h
  rw [h] at hwalks hagrees
  exact ⟨ts, hwalks, hwalks.ne_nil_of_length_lt hlength, hagrees⟩

theorem error_of_readReference {i : Issue} (h : readReference declared c = (c', .error i)) :
    ∃ ts, c.Walks ts c' ∧ Definition.readReference declared c.inSection = .error i := by
  obtain ⟨⟨ts, hwalks⟩, hagrees⟩ := readReference_follows declared c
  rw [h] at hwalks hagrees
  exact ⟨ts, hwalks, hagrees⟩

theorem length_readNames_lt {names read : List (NameId × Token)} {d' : Draft}
    (h : readNames names c d = (d', c', .ok read)) : c'.ahead.length < c.ahead.length := by
  fun_induction readNames names c d with
  | case1 => cases h
  | case2 => cases h
  | case3 names c d t rest hahead names' d' htake hcomma ih =>
    exact (ih h).trans_le (c.advance.suffix_advance.trans c.suffix_advance).length_le
  | case4 names c d t rest hahead =>
    cases h
    exact Cursor.length_advance_lt (by simp [hahead])

/-! ## Lines -/

def readDeviceLine (c : Cursor) (d : Draft) : Cursor × Draft :=
  match readNames [] c d with
  | (d, c, .error issue) => abandonLine d c issue
  | (d, c, .ok names) =>
    match readKind c with
    | (c, .error issue) => abandonLine d c issue
    | (c, .ok (kind, parameter)) => endLine (names.foldl (·.declare kind parameter ·) d) c

def readSources (t : Target) (index : Nat) (c : Cursor) (d : Draft) : Cursor × Draft :=
  match _h : readReference d.declared c with
  | (c', .error issue) => abandonLine d c' issue
  | (c', .ok source) =>
    match d.attach t index source with
    | .error issue => abandonLine d c' issue
    | .ok d =>
      if c'.isAt .comma then readSources t (index + 1) c'.advance d
      else endLine d c'
termination_by c.ahead.length
decreasing_by
  exact Nat.lt_of_le_of_lt c'.suffix_advance.length_le (length_readReference_lt _h)

def readConnectionLine (c : Cursor) (d : Draft) : Cursor × Draft :=
  match readTarget d c with
  | (c, .error issue) => abandonLine d c issue
  | (c, .ok target) => readSources target 0 c d

def readMonitorLine (c : Cursor) (d : Draft) : Cursor × Draft :=
  match _h : readReference d.declared c with
  | (c', .error issue) => abandonLine d c' issue
  | (c', .ok r) =>
    if c'.isAt .comma then readMonitorLine c'.advance (d.monitor r)
    else endLine (d.monitor r) c'
termination_by c.ahead.length
decreasing_by
  exact Nat.lt_of_le_of_lt c'.suffix_advance.length_le (length_readReference_lt _h)

def readLine : Section → Cursor → Draft → Cursor × Draft
  | .devices => readDeviceLine
  | .conns => readConnectionLine
  | .monit => readMonitorLine

end InFile

theorem readDeviceLine_follows (c : Cursor) (d : Draft) :
    FollowsLine c d (InFile.readDeviceLine c d) (readDeviceLine c.inSection d) := by
  obtain ⟨hdraft, ⟨ts, hwalks⟩, hagrees⟩ := readNames_follows [] c d
  have hleads := (builds_readNames [] c.inSection d).leads
  have hlength : ∀ {d' c' read}, InFile.readNames [] c d = (d', c', .ok read) →
      c'.ahead.length < c.ahead.length := InFile.length_readNames_lt
  unfold InFile.readDeviceLine readDeviceLine
  generalize InFile.readNames [] c d = x at hdraft hwalks hagrees hlength
  generalize readNames [] c.inSection d = y at hdraft hagrees hleads
  obtain ⟨d₁, c₁, result⟩ := x
  obtain ⟨d₁', result'⟩ := y
  dsimp only at hdraft hwalks hagrees hleads
  subst hdraft hagrees
  cases result with
  | error issue =>
    simp only [Except.map]
    rw [← hwalks.abandonLine_eq]
    exact (abandonLine_follows c₁ d₁' issue).behind hwalks hleads
  | ok names =>
    have hts : ts ≠ [] := hwalks.ne_nil_of_length_lt (hlength rfl)
    obtain ⟨⟨us, hwalks'⟩, hkind⟩ := readKind_follows c₁
    simp only [Except.map, hkind]
    generalize InFile.readKind c₁ = z at hwalks' ⊢
    obtain ⟨c₂, kind⟩ := z
    cases kind with
    | error issue =>
      simp only
      rw [← hwalks'.abandonLine_eq]
      exact (abandonLine_follows c₂ d₁' issue).behind (hwalks.trans hwalks') hleads
    | ok kind =>
      refine endLine_follows (hwalks.trans hwalks') (List.append_ne_nil_of_left_ne_nil hts us)
        (hleads.trans ?_)
      exact (Draft.builds_foldl (fun d name => d.builds_declare kind.1 kind.2 name) names d₁').leads

theorem readSources_follows (t : Target) (index : Nat) (c : Cursor) (d : Draft) :
    FollowsLine c d (InFile.readSources t index c d) (readSources t index c.inSection d) := by
  fun_induction InFile.readSources t index c d with
  | case1 index c d c' issue hread =>
    obtain ⟨ts, hwalks, hsection⟩ := InFile.error_of_readReference hread
    rw [readSources_error hsection, ← hwalks.abandonLine_eq]
    exact (abandonLine_follows c' d issue).behind hwalks (.refl d)
  | case2 index c d c' source hread issue hattach =>
    obtain ⟨ts, hwalks, -, hsection⟩ := InFile.ok_of_readReference hread
    rw [readSources_eq hsection, hattach]
    exact (abandonLine_follows c' d issue).behind hwalks (.refl d)
  | case3 index c d c' source hread d' hattach hcomma ih =>
    obtain ⟨ts, hwalks, -, hsection⟩ := InFile.ok_of_readReference hread
    obtain ⟨⟨us, hwalks'⟩, hadvance⟩ := c'.walks_of_isAt hcomma (by simp) (by simp)
    rw [readSources_eq hsection, hattach]
    simp only [Cursor.isAt_inSection, hcomma, if_true, hadvance]
    exact ih.behind (hwalks.trans hwalks') (Draft.leads_attach hattach)
  | case4 index c d c' source hread d' hattach hcomma =>
    obtain ⟨ts, hwalks, hts, hsection⟩ := InFile.ok_of_readReference hread
    rw [readSources_eq hsection, hattach]
    simp only [Cursor.isAt_inSection, if_neg hcomma]
    exact endLine_follows hwalks hts (Draft.leads_attach hattach)

theorem readConnectionLine_follows (c : Cursor) (d : Draft) :
    FollowsLine c d (InFile.readConnectionLine c d) (readConnectionLine c.inSection d) := by
  obtain ⟨⟨ts, hwalks⟩, hagrees⟩ := readTarget_follows d c
  unfold InFile.readConnectionLine readConnectionLine
  rw [hagrees]
  generalize InFile.readTarget d c = x at hwalks ⊢
  obtain ⟨c', target⟩ := x
  cases target with
  | error issue =>
    simp only [Except.map]
    rw [← hwalks.abandonLine_eq]
    exact (abandonLine_follows c' d issue).behind hwalks (.refl d)
  | ok target => exact (readSources_follows target 0 c' d).behind hwalks (.refl d)

theorem readMonitorLine_follows (c : Cursor) (d : Draft) :
    FollowsLine c d (InFile.readMonitorLine c d) (readMonitorLine c.inSection d) := by
  fun_induction InFile.readMonitorLine c d with
  | case1 c d c' issue hread =>
    obtain ⟨ts, hwalks, hsection⟩ := InFile.error_of_readReference hread
    rw [readMonitorLine_error hsection, ← hwalks.abandonLine_eq]
    exact (abandonLine_follows c' d issue).behind hwalks (.refl d)
  | case2 c d c' r hread hcomma ih =>
    obtain ⟨ts, hwalks, -, hsection⟩ := InFile.ok_of_readReference hread
    obtain ⟨⟨us, hwalks'⟩, hadvance⟩ := c'.walks_of_isAt hcomma (by simp) (by simp)
    rw [readMonitorLine_eq hsection]
    simp only [Cursor.isAt_inSection, hcomma, if_true, hadvance]
    exact ih.behind (hwalks.trans hwalks') (d.leads_monitor r)
  | case3 c d c' r hread hcomma =>
    obtain ⟨ts, hwalks, hts, hsection⟩ := InFile.ok_of_readReference hread
    rw [readMonitorLine_eq hsection]
    simp only [Cursor.isAt_inSection, if_neg hcomma]
    exact endLine_follows hwalks hts (d.leads_monitor r)

/-- A line is read in the file as it is in its section, and ends in one of three ways. -/
theorem readLine_follows (s : Section) (c : Cursor) (d : Draft) :
    FollowsLine c d (InFile.readLine s c d) (readLine s c.inSection d) := by
  cases s with
  | devices => exact readDeviceLine_follows c d
  | conns => exact readConnectionLine_follows c d
  | monit => exact readMonitorLine_follows c d

end Breadboard.Definition
