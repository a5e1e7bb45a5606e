import Breadboard.Proofs.Definition.Changes
import Breadboard.Proofs.Definition.Places

/-!
# What a reader passes

How far a reader has come when it finds an issue. A reader of a line passes tokens one by one, none
of which is a semicolon, and what it reports is one of them or the token that it has come to. If it
gives the line up, the rest is skipped from the start of the line, which comes to the same.

* `Passes.skipLine_eq`: a line is skipped to the same place from each of its tokens on.
* `Among.le_place`: the tokens of a text stand in the order in which a cursor passes them.
* `readReference_passes`, `readTarget_passes`, `readKind_passes`: what the parts of a line pass.
* `readReference_error`, `readTarget_error`, `readKind_error`: where they find fault.
-/
namespace Breadboard.Definition

/-- The tokens stand in the order of their places. -/
def InPlaces (ts : List Token) : Prop := ts.Pairwise fun t u => t.position ≤ u.position

/-- The issue is at one of the tokens. -/
def Issue.On (i : Issue) (ts : List Token) : Prop := ∃ t ∈ ts, i.position = t.position

theorem Issue.On.mono {i : Issue} {ts ts' : List Token} (h : i.On ts) (hts : ts ⊆ ts') :
    i.On ts' := by
  obtain ⟨t, ht, hposition⟩ := h
  exact ⟨t, hts ht, hposition⟩

theorem Fault.on_on {f : Fault} {t : Token} {ts : List Token} (h : t ∈ ts) : (f.on t).On ts :=
  ⟨t, h, rfl⟩

namespace Cursor

def place (c : Cursor) : Position := c.current.position

/-- The second cursor is behind some tokens of which none is a semicolon. -/
structure Passes (c : Cursor) (ts : List Token) (c' : Cursor) : Prop where
  stop : c'.stop = c.stop
  ahead : c.ahead = ts ++ c'.ahead
  previous : c'.previous = ts.getLastD c.previous
  plain : ∀ t ∈ ts, t.isMark .semicolon = false

variable {c c' c'' : Cursor} {ts ts' tokens : List Token}

namespace Passes

theorem refl (c : Cursor) : c.Passes [] c := ⟨rfl, rfl, rfl, fun _ h => absurd h List.not_mem_nil⟩

theorem trans (h : c.Passes ts c') (h' : c'.Passes ts' c'') : c.Passes (ts ++ ts') c'' := by
  refine ⟨h'.stop.trans h.stop, by rw [h.ahead, h'.ahead, List.append_assoc], ?_,
    List.forall_mem_append.2 ⟨h.plain, h'.plain⟩⟩
  rw [h'.previous, h.previous]
  simp only [List.getLastD_eq_getLast?, List.getLast?_append]
  cases ts'.getLast? <;> rfl

theorem previous_mem (h : c.Passes ts c') (hts : ts ≠ []) : c'.previous ∈ ts := by
  rw [h.previous, List.getLastD_eq_getLast?, List.getLast?_eq_some_getLast hts]
  exact List.getLast_mem hts

theorem of_cons {t : Token} (h : c.Passes (t :: ts) c') : c.advance.Passes ts c' := by
  have hcons : c.ahead = t :: (ts ++ c'.ahead) := h.ahead
  rw [advance_cons hcons]
  refine ⟨h.stop, rfl, ?_, (List.forall_mem_cons.1 h.plain).2⟩
  rw [h.previous]
  simp only [List.getLastD_eq_getLast?, List.getLast?_cons]
  rfl

theorem eq_of_nil (h : c.Passes [] c') : c' = c := by
  obtain ⟨hstop, hahead, hprevious, -⟩ := h
  obtain ⟨previous, ahead, stop⟩ := c
  obtain ⟨previous', ahead', stop'⟩ := c'
  simp only [List.nil_append, List.getLastD_nil] at hstop hahead hprevious
  rw [hstop, hahead, hprevious]

/-- A line is skipped to the same place from each of its tokens on. -/
theorem skipLine_eq (h : c.Passes ts c') : c'.skipLine = c.skipLine := by
  induction ts generalizing c with
  | nil => rw [h.eq_of_nil]
  | cons t ts ih =>
    have ht : t.isMark .semicolon = false := (List.forall_mem_cons.1 h.plain).1
    have hcons : c.ahead = t :: (ts ++ c'.ahead) := h.ahead
    rw [ih h.of_cons, skipLine.eq_def c, if_neg (by simp [hcons]), isAt, current_cons hcons, ht,
      if_neg Bool.false_ne_true]

end Passes

/-! ## Cursors among the tokens of a text -/

/-- The cursor is one among some tokens, and its section ends with an opening square bracket or with
the file. -/
structure Among (c : Cursor) (tokens : List Token) : Prop where
  isInfix : (c.ahead ++ [c.stop]) <:+: tokens
  stop : c.stop.kind = .endOfFile ∨ c.stop.kind = .mark .openSquare

theorem current_mem (c : Cursor) : c.current ∈ c.ahead ++ [c.stop] := by
  unfold current
  cases c.ahead <;> simp

namespace Among

theorem of_suffix (h : c.Among tokens) (hahead : c'.ahead <:+ c.ahead) (hstop : c'.stop = c.stop) :
    c'.Among tokens := by
  obtain ⟨before, hbefore⟩ := hahead
  refine ⟨.trans ?_ h.isInfix, hstop ▸ h.stop⟩
  rw [hstop, ← hbefore, List.append_assoc]
  exact (List.suffix_append before _).isInfix

theorem advance (h : c.Among tokens) : c.advance.Among tokens :=
  h.of_suffix c.suffix_advance c.stop_advance

theorem passes (h : c.Among tokens) (hpasses : c.Passes ts c') : c'.Among tokens :=
  h.of_suffix ⟨ts, hpasses.ahead.symm⟩ hpasses.stop

theorem stop_skipLine (c : Cursor) : c.skipLine.stop = c.stop := by
  fun_induction Cursor.skipLine c with
  | case1 => rfl
  | case2 c => exact c.stop_advance
  | case3 c _ _ ih => exact ih.trans c.stop_advance

theorem pairwise (h : c.Among tokens) (hplaces : InPlaces tokens) :
    InPlaces (c.ahead ++ [c.stop]) :=
  hplaces.sublist h.isInfix.sublist

/-- The current token is the first one of those that are left. -/
theorem place_le (h : c.Among tokens) (hplaces : InPlaces tokens) {t : Token}
    (ht : t ∈ c.ahead ++ [c.stop]) : c.place ≤ t.position := by
  have hpairwise := h.pairwise hplaces
  unfold place current
  cases hahead : c.ahead with
  | nil =>
    rw [hahead] at ht
    rw [List.mem_singleton.1 ht]
    exact le_refl _
  | cons u rest =>
    rw [hahead] at ht hpairwise
    rcases List.mem_cons.1 ht with rfl | ht
    · exact le_refl _
    · exact (List.pairwise_cons.1 hpairwise).1 t ht

theorem place_le_of_suffix (h : c.Among tokens) (hplaces : InPlaces tokens)
    (hahead : c'.ahead <:+ c.ahead) (hstop : c'.stop = c.stop) : c.place ≤ c'.place := by
  refine h.place_le hplaces ?_
  have hmem := c'.current_mem
  rw [hstop] at hmem
  rcases List.mem_append.1 hmem with hmem | hmem
  · exact List.mem_append_left _ (hahead.subset hmem)
  · exact List.mem_append_right _ hmem

theorem place_le_stop (h : c.Among tokens) (hplaces : InPlaces tokens) :
    c.place ≤ c.stop.position :=
  h.place_le hplaces (List.mem_append_right _ (List.mem_singleton_self _))

theorem place_le_advance (h : c.Among tokens) (hplaces : InPlaces tokens) :
    c.place ≤ c.advance.place :=
  h.place_le_of_suffix hplaces c.suffix_advance c.stop_advance

theorem place_le_skipLine (h : c.Among tokens) (hplaces : InPlaces tokens) :
    c.place ≤ c.skipLine.place :=
  h.place_le_of_suffix hplaces c.suffix_skipLine (stop_skipLine c)

/-- What is passed stands between the two cursors. -/
theorem le_place (h : c.Among tokens) (hplaces : InPlaces tokens) (hpasses : c.Passes ts c')
    {t : Token} (ht : t ∈ ts) : c.place ≤ t.position ∧ t.position ≤ c'.place := by
  refine ⟨h.place_le hplaces ?_, ?_⟩
  · rw [hpasses.ahead, List.append_assoc]
    exact List.mem_append_left _ ht
  · have hpairwise := h.pairwise hplaces
    rw [hpasses.ahead, ← hpasses.stop, List.append_assoc] at hpairwise
    exact (List.pairwise_append.1 hpairwise).2.2 t ht _ c'.current_mem

/-- The last token that is passed stands behind the others. -/
theorem le_previous (h : c.Among tokens) (hplaces : InPlaces tokens) (hpasses : c.Passes ts c')
    {t : Token} (ht : t ∈ ts) : t.position ≤ c'.previous.position := by
  have hpairwise : InPlaces ts := by
    have hpairwise := h.pairwise hplaces
    rw [hpasses.ahead, List.append_assoc] at hpairwise
    exact (List.pairwise_append.1 hpairwise).1
  obtain ⟨init, last, rfl⟩ := (List.eq_nil_or_concat' ts).resolve_left (List.ne_nil_of_mem ht)
  rw [hpasses.previous, List.getLastD_concat]
  rcases List.mem_append.1 ht with ht | ht
  · exact (List.pairwise_append.1 hpairwise).2.2 t ht last (List.mem_singleton_self last)
  · rw [List.mem_singleton.1 ht]

/-- A token of a line other than its semicolon is passed by going on to the next one. -/
theorem passes_advance (h : c.Among tokens) (hend : c.current.kind ≠ .endOfFile)
    (hopen : c.current.kind ≠ .mark .openSquare) (hsemicolon : c.current.kind ≠ .mark .semicolon) :
    c.Passes [c.current] c.advance := by
  cases hahead : c.ahead with
  | nil =>
    have hstop : c.current = c.stop := by rw [current, hahead, List.headD_nil]
    rw [hstop] at hend hopen
    exact absurd h.stop (by simp [hend, hopen])
  | cons t rest =>
    rw [current_cons hahead] at hsemicolon ⊢
    rw [advance_cons hahead]
    exact ⟨rfl, hahead, rfl, List.forall_mem_singleton.2 (by simpa [Token.isMark] using hsemicolon)⟩

theorem passes_advance_of_isAt (h : c.Among tokens) {m : Mark} (hm : c.isAt m = true)
    (hopen : m ≠ .openSquare) (hsemicolon : m ≠ .semicolon) : c.Passes [c.current] c.advance := by
  have hkind : c.current.kind = .mark m := of_decide_eq_true hm
  exact h.passes_advance (by simp [hkind]) (by simpa [hkind] using hopen)
    (by simpa [hkind] using hsemicolon)

end Among

/-- The issue is at a token that a reader of a line passes, or at the one that it has come to. -/
def Meets (c : Cursor) (i : Issue) : Prop :=
  ∃ ts c', c.Passes ts c' ∧ i.On (ts ++ [c'.current])

variable {i : Issue}

theorem Meets.here (h : i.position = c.place) : c.Meets i :=
  ⟨[], c, .refl c, c.current, List.mem_singleton_self _, h⟩

theorem Meets.behind (hpasses : c.Passes ts c') (h : c'.Meets i) : c.Meets i := by
  obtain ⟨ts', c'', hpasses', hi⟩ := h
  refine ⟨ts ++ ts', c'', hpasses.trans hpasses', hi.mono ?_⟩
  rw [List.append_assoc]
  exact List.subset_append_right _ _

theorem Meets.passed (hpasses : c.Passes ts c') (h : i.On ts) : c.Meets i :=
  ⟨ts, c', hpasses, h.mono (List.subset_append_left _ _)⟩

/-- If the line is given up, the issue stands between its start and the next line. -/
theorem Among.le_of_meets (h : c.Among tokens) (hplaces : InPlaces tokens) (hi : c.Meets i) :
    c.place ≤ i.position ∧ i.position ≤ c.skipLine.place := by
  obtain ⟨ts, c', hpasses, t, ht, hposition⟩ := hi
  have hskip : c'.place ≤ c.skipLine.place := by
    rw [← hpasses.skipLine_eq]
    exact (h.passes hpasses).place_le_skipLine hplaces
  rw [hposition]
  rcases List.mem_append.1 ht with ht | ht
  · exact (h.le_place hplaces hpasses ht).imp_right fun hle => hle.trans hskip
  · rw [List.mem_singleton.1 ht]
    exact ⟨h.place_le_of_suffix hplaces ⟨ts, hpasses.ahead.symm⟩ hpasses.stop, hskip⟩

end Cursor

/-! ## References -/

section references

variable {c c' : Cursor} {tokens : List Token} {r : Reference} {i : Issue} {d : Draft}

/-- The tokens that name a device and one of its pins. -/
def Reference.named (r : Reference) : List Token := r.name :: r.pin.toList

theorem Reference.last_mem (r : Reference) : r.last ∈ r.named := by
  unfold last named
  cases r.pin <;> simp

theorem readPin_passes {device : NameId} {name : Token} (h : c.Among tokens)
    (hread : readPin device name c = .ok (r, c')) :
    ∃ ts, c.Passes ts c' ∧ r.name = name ∧ r.pin.toList ⊆ ts := by
  simp only [readPin] at hread
  split at hread
  · rename_i hdot
    have hpasses : c.Passes [c.current] c.advance :=
      h.passes_advance (by simp [hdot]) (by simp [hdot]) (by simp [hdot])
    split at hread
    · rename_i hname
      cases hread
      have hpin := (h.advance).passes_advance (by simp [hname]) (by simp [hname]) (by simp [hname])
      exact ⟨_, hpasses.trans hpin, rfl, by simp⟩
    · cases hread
    · cases hread
  · cases hread
  · cases hread
    exact ⟨[], .refl c, rfl, List.nil_subset _⟩

theorem readPin_error {device : NameId} {name : Token} (h : c.Among tokens)
    (hread : readPin device name c = .error i) : c.Meets i := by
  simp only [readPin] at hread
  split at hread
  · rename_i hdot
    have hpasses : c.Passes [c.current] c.advance :=
      h.passes_advance (by simp [hdot]) (by simp [hdot]) (by simp [hdot])
    split at hread <;> cases hread
    all_goals exact .behind hpasses (.here rfl)
  · cases hread
    exact .here rfl
  · cases hread

theorem readReference_passes {declared : List NameId} (h : c.Among tokens)
    (hread : readReference declared c = .ok (r, c')) :
    ∃ ts, c.Passes ts c' ∧ r.named ⊆ ts := by
  unfold readReference at hread
  split at hread
  · cases hread
  rename_i t rest hahead
  split at hread
  · rename_i hname
    split at hread
    · rw [← Cursor.current_cons hahead] at hname
      have hpasses := h.passes_advance (by simp [hname]) (by simp [hname]) (by simp [hname])
      obtain ⟨ts, hpin, hrname, hrpin⟩ := readPin_passes h.advance hread
      refine ⟨_, hpasses.trans hpin, List.cons_subset.2 ⟨?_, ?_⟩⟩
      · rw [hrname, Cursor.current_cons hahead]
        exact List.mem_cons_self
      · exact List.subset_append_of_subset_right _ hrpin
    · cases hread
  · cases hread
  · cases hread

theorem readReference_error {declared : List NameId} (h : c.Among tokens)
    (hread : readReference declared c = .error i) : c.Meets i := by
  unfold readReference at hread
  split at hread
  · rename_i hahead
    cases hread
    exact .here (by rw [Cursor.place, Cursor.current, hahead]; rfl)
  rename_i t rest hahead
  have ht : t.position = c.place := by rw [Cursor.place, Cursor.current_cons hahead]
  split at hread
  · rename_i hname
    split at hread
    · rw [← Cursor.current_cons hahead] at hname
      exact .behind (h.passes_advance (by simp [hname]) (by simp [hname]) (by simp [hname]))
        (readPin_error h.advance hread)
    · cases hread
      exact .here ht
  · cases hread
    exact .here ht
  · cases hread
    exact .here ht

theorem device_error (hdevice : d.device r = .error i) : i.On r.named := by
  unfold Draft.device at hdevice
  split at hdevice <;> cases hdevice
  exact Fault.on_on List.mem_cons_self

theorem output_error (houtput : d.output r = .error i) : i.On r.named := by
  simp only [Draft.output, bind, Except.bind] at houtput
  split at houtput
  · rename_i hdevice
    cases houtput
    exact device_error hdevice
  split at houtput
  · cases houtput
    exact Fault.on_on List.mem_cons_self
  · cases houtput
  · rename_i hpin _
    split at houtput <;> cases houtput
    exact Fault.on_on (by simp [Reference.named, hpin])
  · rename_i hpin _
    cases houtput
    exact Fault.on_on (by simp [Reference.named, hpin])

theorem input_error (hinput : d.input r = .error i) : i.On r.named := by
  simp only [Draft.input, bind, Except.bind] at hinput
  split at hinput
  · rename_i hdevice
    cases hinput
    exact device_error hdevice
  have hname : ∀ f : Fault, (f.on r.name).On r.named := fun f => Fault.on_on List.mem_cons_self
  split at hinput
  · split at hinput <;> cases hinput
    all_goals exact hname _
  · rename_i word hpin
    have hword : ∀ f : Fault, (f.on word).On r.named := fun f =>
      Fault.on_on (by simp [Reference.named, hpin])
    split at hinput
    · split at hinput <;> cases hinput
      all_goals exact hword _
    · split at hinput
      · cases hinput
      split at hinput <;> cases hinput
      all_goals exact hword _

/-! ## Parts of connection lines -/

theorem readTarget_passes {t : Target} (h : c.Among tokens) (hread : readTarget d c = .ok (t, c')) :
    ∃ ts, c.Passes ts c' ∧ ts ≠ [] := by
  simp only [readTarget, bind, Except.bind] at hread
  split at hread
  · cases hread
  rename_i x hreference
  obtain ⟨ts, hpasses, -⟩ := readReference_passes h hreference
  split at hread
  · cases hread
  split at hread
  · cases hread
  split at hread <;> cases hread
  rename_i hequal
  exact ⟨_, hpasses.trans ((h.passes hpasses).passes_advance_of_isAt hequal (by simp) (by simp)),
    by simp⟩

theorem readTarget_error (h : c.Among tokens) (hread : readTarget d c = .error i) : c.Meets i := by
  simp only [readTarget, bind, Except.bind] at hread
  split at hread
  · rename_i hreference
    cases hread
    exact readReference_error h hreference
  rename_i x hreference
  obtain ⟨ts, hpasses, hnamed⟩ := readReference_passes h hreference
  split at hread
  · rename_i hinput
    cases hread
    exact .passed hpasses ((input_error hinput).mono hnamed)
  split at hread
  · rename_i hdevice
    cases hread
    exact .passed hpasses ((device_error hdevice).mono hnamed)
  split at hread <;> cases hread
  exact .behind hpasses (.here rfl)

/-- What is wrong with a source is told of its name or its pin. -/
theorem attach_error {t : Target} {index : Nat} (hattach : d.attach t index r = .error i) :
    i.On r.named := by
  simp only [Draft.attach, bind, Except.bind] at hattach
  split at hattach
  · rename_i houtput
    cases hattach
    exact output_error houtput
  split at hattach
  · rename_i hpin
    cases hattach
    unfold Target.pin at hpin
    split at hpin
    · split at hpin <;> cases hpin
      exact Fault.on_on r.last_mem
    · split at hpin <;> cases hpin
      exact Fault.on_on List.mem_cons_self
  split at hattach <;> cases hattach
  exact Fault.on_on List.mem_cons_self

/-! ## Parts of device lines -/

theorem readParameter_passes {parameter : Option UInt32} (h : c.Among tokens)
    (hread : readParameter c = .ok (parameter, c')) : ∃ ts, c.Passes ts c' := by
  simp only [readParameter] at hread
  split at hread
  · cases hread
    exact ⟨[], .refl c⟩
  rename_i hopen
  rw [Bool.not_eq_true, Bool.not_eq_false'] at hopen
  split at hread
  · cases hread
  rename_i hnumber
  rw [ne_eq, not_not] at hnumber
  split at hread
  · cases hread
  split at hread
  · rename_i hclose
    cases hread
    have hbracket := h.passes_advance_of_isAt hopen (by simp) (by simp)
    have hdigits := h.advance.passes_advance (by simp [hnumber]) (by simp [hnumber])
      (by simp [hnumber])
    have hclosed := h.advance.advance.passes_advance_of_isAt hclose (by simp) (by simp)
    exact ⟨_, (hbracket.trans hdigits).trans hclosed⟩
  · cases hread

theorem readParameter_error (h : c.Among tokens) (hread : readParameter c = .error i) :
    c.Meets i := by
  simp only [readParameter] at hread
  split at hread
  · cases hread
  rename_i hopen
  rw [Bool.not_eq_true, Bool.not_eq_false'] at hopen
  have hbracket := h.passes_advance_of_isAt hopen (by simp) (by simp)
  split at hread
  · cases hread
    exact .behind hbracket (.here rfl)
  rename_i hnumber
  rw [ne_eq, not_not] at hnumber
  have hdigits := h.advance.passes_advance (by simp [hnumber]) (by simp [hnumber])
    (by simp [hnumber])
  split at hread
  · cases hread
    exact .behind hbracket (.here rfl)
  split at hread <;> cases hread
  exact .behind (hbracket.trans hdigits) (.here rfl)

theorem readKind_passes {kind : DeviceKind × Option UInt32} (h : c.Among tokens)
    (hread : readKind c = .ok (kind, c')) : ∃ ts, c.Passes ts c' := by
  simp only [readKind] at hread
  split at hread
  · cases hread
  rename_i hequal
  rw [Bool.not_eq_true, Bool.not_eq_false'] at hequal
  have hpasses := h.passes_advance_of_isAt hequal (by simp) (by simp)
  split at hread
  · rename_i hlogic
    have hkind := h.advance.passes_advance (by simp [hlogic]) (by simp [hlogic]) (by simp [hlogic])
    cases hparameter : readParameter c.advance.advance with
    | error => simp [hparameter, Except.map] at hread
    | ok x =>
      rw [hparameter] at hread
      cases hread
      obtain ⟨ts, hpassed⟩ := readParameter_passes h.advance.advance hparameter
      exact ⟨_, (hpasses.trans hkind).trans hpassed⟩
  · cases hread

theorem readKind_error (h : c.Among tokens) (hread : readKind c = .error i) : c.Meets i := by
  simp only [readKind] at hread
  split at hread
  · cases hread
    exact .here rfl
  rename_i hequal
  rw [Bool.not_eq_true, Bool.not_eq_false'] at hequal
  have hpasses := h.passes_advance_of_isAt hequal (by simp) (by simp)
  split at hread
  · rename_i hlogic
    have hkind := h.advance.passes_advance (by simp [hlogic]) (by simp [hlogic]) (by simp [hlogic])
    cases hparameter : readParameter c.advance.advance with
    | ok => simp [hparameter, Except.map] at hread
    | error issue =>
      rw [hparameter] at hread
      cases hread
      exact .behind (hpasses.trans hkind) (readParameter_error h.advance.advance hparameter)
  · cases hread
    exact .behind hpasses (.here rfl)

end references

end Breadboard.Definition
