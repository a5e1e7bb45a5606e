import Breadboard.Proofs.Definition.DiagnosticOrder

/-!
# Where issues are found

An issue is found at a token of the file, or at its end. A reader of a line reports what it has
passed or what it has come to, and the header of a section is reported at one of its tokens.

* `Cursor.Among.on_of_meets`: what makes a reader give a line up is at one of the tokens.
* `addsOn_readLine`, `addsOn_readLines`: what is found in one line, and in the lines of a section.
* `addsOn_readFile`: what is found in a file.
-/
namespace Breadboard.Definition

variable {tokens : List Token} {c c' : Cursor} {d d' : Draft} {i : Issue}

namespace Draft

/-- The issues that the second draft has more than the first one are at some tokens. -/
def AddsOn (tokens : List Token) (d d' : Draft) : Prop :=
  ∃ new, d'.issues = d.issues ++ new ∧ ∀ i ∈ new, i.On tokens

namespace AddsOn

theorem of_issues_eq (h : d'.issues = d.issues) : d.AddsOn tokens d' :=
  ⟨[], by rw [h, List.append_nil], fun _ hi => absurd hi List.not_mem_nil⟩

theorem refl (d : Draft) : d.AddsOn tokens d := of_issues_eq rfl

theorem trans {d'' : Draft} (h : d.AddsOn tokens d') (h' : d'.AddsOn tokens d'') :
    d.AddsOn tokens d'' := by
  obtain ⟨new, hnew, hon⟩ := h
  obtain ⟨more, hmore, hon'⟩ := h'
  exact ⟨new ++ more, by rw [hmore, hnew, List.append_assoc], List.forall_mem_append.2 ⟨hon, hon'⟩⟩

theorem report (d : Draft) (h : i.On tokens) : d.AddsOn tokens (d.report i) :=
  ⟨[i], rfl, List.forall_mem_singleton.2 h⟩

theorem report_at (d : Draft) {t : Token} (h : t ∈ tokens) (f : Fault) :
    d.AddsOn tokens (d.report (f.on t)) := report d (Fault.on_on h)

theorem foldl {α : Type} {f : Draft → α → Draft} (hf : ∀ (d : Draft) a, d.AddsOn tokens (f d a))
    (as : List α) (d : Draft) : d.AddsOn tokens (as.foldl f d) := by
  induction as generalizing d with
  | nil => exact .refl d
  | cons a as ih => exact (hf d a).trans (ih _)

end AddsOn

end Draft

namespace Cursor.Among

theorem subset (h : c.Among tokens) : c.ahead ++ [c.stop] ⊆ tokens := h.isInfix.subset

theorem current_mem (h : c.Among tokens) : c.current ∈ tokens := h.subset c.current_mem

theorem passed_subset {ts : List Token} (h : c.Among tokens) (hpasses : c.Passes ts c') :
    ts ⊆ tokens := by
  intro t ht
  refine h.subset (List.mem_append_left _ ?_)
  rw [hpasses.ahead]
  exact List.mem_append_left _ ht

/-- What makes a reader give a line up is at one of the tokens. -/
theorem on_of_meets (h : c.Among tokens) (hi : c.Meets i) : i.On tokens := by
  obtain ⟨ts, c', hpasses, hon⟩ := hi
  refine hon.mono (List.append_subset.2 ⟨h.passed_subset hpasses, ?_⟩)
  exact List.cons_subset.2 ⟨(h.passes hpasses).current_mem, List.nil_subset _⟩

end Cursor.Among

/-! ## Lines -/

theorem addsOn_endLine (h : c.Among tokens) (hprevious : c.previous ∈ tokens) (d : Draft) :
    d.AddsOn tokens (d.endLine c).2 := by
  unfold Draft.endLine
  split
  · exact .refl d
  split
  · exact .report_at d hprevious _
  · exact .report_at d h.current_mem _

theorem addsOn_endLine_passed {ts : List Token} (h : c.Among tokens) (hpasses : c.Passes ts c')
    (hts : ts ≠ []) (d : Draft) : d.AddsOn tokens (d.endLine c').2 :=
  addsOn_endLine (h.passes hpasses) (h.passed_subset hpasses (hpasses.previous_mem hts)) d

/-- What gives a reference its name is passed with it. -/
theorem readReference_named {declared : List NameId} {r : Reference} (h : c.Among tokens)
    (hread : readReference declared c = .ok (r, c')) :
    ∃ ts, c.Passes ts c' ∧ ts ≠ [] ∧ r.named ⊆ tokens := by
  obtain ⟨ts, hpasses, hnamed⟩ := readReference_passes h hread
  exact ⟨ts, hpasses, List.ne_nil_of_mem (hnamed List.mem_cons_self),
    fun t ht => h.passed_subset hpasses (hnamed ht)⟩

theorem addsOn_readDeviceLine (h : c.Among tokens) (d : Draft) :
    d.AddsOn tokens (readDeviceLine c d).2 := by
  obtain ⟨ts, c₁, faults, hpasses, hissues, hfaults, -, hresult⟩ := readNames_finds [] c d h
  have hpassed : ∀ i : Issue, i.On ts → i.On tokens := fun i hi => hi.mono (h.passed_subset hpasses)
  have hnames : d.AddsOn tokens (readNames [] c d).1 :=
    ⟨faults, hissues, fun i hi => hpassed i (Issue.on_of_sublist hfaults hi)⟩
  unfold readDeviceLine
  generalize readNames [] c d = x at hnames hresult
  obtain ⟨d₁, result⟩ := x
  dsimp only at hnames hresult
  rcases hresult with ⟨issue, rfl, hmeets⟩ | ⟨names, rfl, hts, hplaces⟩
  · exact hnames.trans (.report d₁ ((h.passes hpasses).on_of_meets hmeets))
  dsimp only
  split
  · rename_i issue hkind
    have hmeets := readKind_error (h.passes hpasses) hkind
    exact hnames.trans (.report d₁ ((h.passes hpasses).on_of_meets hmeets))
  · rename_i kind parameter c₂ hkind
    obtain ⟨us, hpasses'⟩ := readKind_passes (h.passes hpasses) hkind
    obtain ⟨refusals, hrefused, hrefusals, -⟩ := foldl_declare_finds kind parameter ([] ++ names) d₁
    have hon : ∀ i ∈ refusals, i.On tokens := fun i hi =>
      hpassed i (Issue.on_of_sublist (hrefusals.trans hplaces) hi)
    exact (hnames.trans ⟨refusals, hrefused, hon⟩).trans (addsOn_endLine_passed h
      (hpasses.trans hpasses') (List.append_ne_nil_of_left_ne_nil hts us) _)

theorem addsOn_readSources (t : Target) (index : Nat) (c : Cursor) (d : Draft)
    (h : c.Among tokens) : d.AddsOn tokens (readSources t index c d).2 := by
  have hattached : ∀ {d d' : Draft} {index : Nat} {r : Reference}, r.named ⊆ tokens →
      d.attach t index r = .ok d' → d.AddsOn tokens d' := by
    intro d d' index r hr hattach
    obtain ⟨new, hissues, -, hon⟩ := attach_finds hattach
    exact ⟨new, hissues, fun i hi => (hon i hi).mono hr⟩
  fun_induction readSources t index c d with
  | case1 index c d issue hread => exact .report d (h.on_of_meets (readReference_error h hread))
  | case2 index c d source c' hread issue hattach =>
    obtain ⟨ts, hpasses, -, hnamed⟩ := readReference_named h hread
    exact .report d ((attach_error hattach).mono hnamed)
  | case3 index c d source c' hread d' hattach hcomma ih =>
    obtain ⟨ts, hpasses, -, hnamed⟩ := readReference_named h hread
    exact (hattached hnamed hattach).trans (ih (h.passes hpasses).advance)
  | case4 index c d source c' hread d' hattach hcomma =>
    obtain ⟨ts, hpasses, hts, hnamed⟩ := readReference_named h hread
    exact (hattached hnamed hattach).trans (addsOn_endLine_passed h hpasses hts d')

theorem addsOn_readConnectionLine (h : c.Among tokens) (d : Draft) :
    d.AddsOn tokens (readConnectionLine c d).2 := by
  unfold readConnectionLine
  split
  · rename_i issue hread
    exact .report d (h.on_of_meets (readTarget_error h hread))
  · rename_i t c' hread
    obtain ⟨ts, hpasses, -⟩ := readTarget_passes h hread
    exact addsOn_readSources t 0 c' d (h.passes hpasses)

theorem addsOn_readMonitorLine (c : Cursor) (d : Draft) (h : c.Among tokens) :
    d.AddsOn tokens (readMonitorLine c d).2 := by
  have hmonitor : ∀ (d : Draft) {r : Reference}, r.named ⊆ tokens →
      d.AddsOn tokens (d.monitor r) := by
    intro d r hr
    obtain ⟨new, hissues, -, hon⟩ := monitor_finds d r
    exact ⟨new, hissues, fun i hi => (hon i hi).mono hr⟩
  fun_induction readMonitorLine c d with
  | case1 c d issue hread => exact .report d (h.on_of_meets (readReference_error h hread))
  | case2 c d r c' hread hcomma ih =>
    obtain ⟨ts, hpasses, -, hnamed⟩ := readReference_named h hread
    exact (hmonitor d hnamed).trans (ih (h.passes hpasses).advance)
  | case3 c d r c' hread hcomma =>
    obtain ⟨ts, hpasses, hts, hnamed⟩ := readReference_named h hread
    exact (hmonitor d hnamed).trans (addsOn_endLine_passed h hpasses hts _)

theorem addsOn_readLine (s : Section) (h : c.Among tokens) (d : Draft) :
    d.AddsOn tokens (readLine s c d).2 := by
  cases s with
  | devices => exact addsOn_readDeviceLine h d
  | conns => exact addsOn_readConnectionLine h d
  | monit => exact addsOn_readMonitorLine c d h

/-! ## Sections and files -/

theorem addsOn_readLines (s : Section) (limit left : Nat) (c : Cursor) (d : Draft)
    (h : c.Among tokens) (hplaces : InPlaces tokens) :
    d.AddsOn tokens (readLines s limit left c d) := by
  induction left generalizing c d with
  | zero =>
    simp only [readLines]
    split
    · exact .refl d
    · exact .report_at d h.current_mem _
  | succ left ih =>
    simp only [readLines]
    split
    · exact .refl d
    · obtain ⟨hstop, -⟩ := finds_readLine s h hplaces d
      exact (addsOn_readLine s h d).trans (ih _ _ (h.of_suffix (suffix_readLine s c d) hstop))

/-- What is found of a section is at its heading or in its lines. -/
theorem addsOn_enter (p : Progress) (reported : List Section) (limit : Nat) (s : Section)
    {heading : Token} {body : Cursor} (hheading : heading ∈ tokens) (hbody : body.Among tokens)
    (hplaces : InPlaces tokens) :
    p.draft.AddsOn tokens (p.enter reported limit s heading body).draft := by
  unfold Progress.enter
  split
  · exact (Draft.AddsOn.foldl (fun d m => .report_at d hheading _) _ _).trans
      (addsOn_readLines s limit limit body _ hbody hplaces)
  · exact .report_at _ hheading _

theorem addsOn_readChunk (reported : List Section) (limit : Nat) (p : Progress) {chunk : Chunk}
    (h : chunk.cursor.Among tokens) (hplaces : InPlaces tokens) :
    p.draft.AddsOn tokens (p.readChunk reported limit chunk).draft := by
  rw [readChunk_eq]
  split
  · rename_i s id hkind
    dsimp only
    split
    · exact addsOn_enter p reported limit s h.current_mem h.advance.advance hplaces
    · exact .trans (.report_at _ h.advance.current_mem _)
        (addsOn_enter _ reported limit s h.current_mem h.advance hplaces)
  · exact .report_at _ h.current_mem _

theorem addsOn_foldl_readChunk (reported : List Section) (limit : Nat) {pieces : List Chunk}
    (h : ∀ chunk ∈ pieces, chunk.cursor.Among tokens) (hplaces : InPlaces tokens) (p : Progress) :
    p.draft.AddsOn tokens (pieces.foldl (Progress.readChunk reported limit) p).draft := by
  induction pieces generalizing p with
  | nil => exact .refl p.draft
  | cons chunk pieces ih =>
    obtain ⟨hchunk, hpieces⟩ := List.forall_mem_cons.1 h
    exact (addsOn_readChunk reported limit p hchunk hplaces).trans (ih hpieces _)

/-- What is found in a file is at one of its tokens, or at its end. -/
theorem addsOn_readFile (limit : Nat) {ts : List Token} {eof : Token} (heof : eof.kind = .endOfFile)
    (hplaces : InPlaces (ts ++ [eof])) (d : Draft) :
    d.AddsOn (ts ++ [eof]) (readFile limit ts eof d) := by
  have hpieces : ∀ chunk ∈ (chunks eof ts).2, chunk.cursor.Among (ts ++ [eof]) :=
    fun chunk hchunk => (among_of_mem_chunks eof ts chunk hchunk).cursor
      (cut_of_mem_chunks chunk hchunk) heof
  have hend : eof ∈ ts ++ [eof] := List.mem_append_right ts (List.mem_singleton_self eof)
  have hbefore : (chunks eof ts).1 ⊆ ts ++ [eof] := by
    intro t ht
    rw [← chunks_flatMap_tokens eof ts, List.append_assoc]
    exact List.mem_append_left _ ht
  simp only [readFile]
  refine .trans ?_ (Draft.AddsOn.foldl (fun d m => .report_at d hend _) _ _)
  refine .trans ?_ (addsOn_foldl_readChunk _ limit hpieces hplaces _)
  dsimp only
  split
  · exact .refl d
  · rename_i t rest hfirst
    exact .report_at d (hbefore (hfirst ▸ List.mem_cons_self)) _

end Breadboard.Definition
