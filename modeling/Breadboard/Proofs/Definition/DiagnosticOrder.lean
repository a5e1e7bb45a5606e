import Breadboard.Proofs.Definition.Headers
import Breadboard.Proofs.Definition.Passing

/-!
# The order of diagnostics

The diagnostics of a text are those of its scan, one behind the other, and then those of its reader,
from left to right: what is found in one header or one declaration does not stand behind what is
found in a later one. Within one of them two things are told late. A header without its closing
bracket is reported where the bracket should be, and only then is it said of its heading that the
section is out of place or that others are missing. The names of a device line that cannot be used
are reported as they are read, and the devices that are refused only when the line has been read.

* `Draft.Finds`: the issues that are new in a draft, and the part of the text that they are in.
* `finds_readLine`: what is found in a line is a `Batch`, and stands between its start and the next
  line.
* `finds_foldl_act`: the same for the pieces of a file.
* `readOnto_batches`: what is found in a text is batches from left to right.
* `repeatedName_out_of_order`: diagnostics that are not in the order of the text.
-/
namespace Breadboard.Definition

/-- The issues stand in the order of their places. -/
def InSourceOrder (issues : List Issue) : Prop :=
  issues.Pairwise fun i j => i.position ≤ j.position

theorem inSourceOrder_of_length_le_one {issues : List Issue} (h : issues.length ≤ 1) :
    InSourceOrder issues := by
  cases issues with
  | nil => exact .nil
  | cons i rest =>
    have hrest : rest = [] := List.length_eq_zero_iff.1 (Nat.le_zero.1 (Nat.le_of_succ_le_succ h))
    rw [hrest]
    exact List.pairwise_singleton _ i

/-- Issues at one place stand in the order of their places. -/
theorem inSourceOrder_of_position_eq {issues : List Issue} {p : Position}
    (h : ∀ i ∈ issues, i.position = p) : InSourceOrder issues :=
  List.pairwise_iff_forall_sublist.2 fun {i j} hij => by
    rw [h i (hij.subset (by simp)), h j (hij.subset (by simp))]

theorem inSourceOrder_of_sublist {issues : List Issue} {ts : List Token}
    (h : (issues.map (·.position)).Sublist (ts.map (·.position))) (hts : InPlaces ts) :
    InSourceOrder issues :=
  List.pairwise_map.1 (List.Pairwise.sublist h (List.pairwise_map.2 hts))

theorem Issue.on_of_sublist {issues : List Issue} {ts : List Token} {i : Issue}
    (h : (issues.map (·.position)).Sublist (ts.map (·.position))) (hi : i ∈ issues) : i.On ts := by
  obtain ⟨t, ht, hposition⟩ := List.mem_map.1 (h.subset (List.mem_map_of_mem hi))
  exact ⟨t, ht, hposition.symm⟩

/-! ## What readers find -/

namespace Draft

variable {d d' d'' : Draft} {lo mid hi lo' hi' : Position} {new new' : List Issue}

/-- The issues that are new in the second draft stand between two places. -/
structure Finds (d : Draft) (lo hi : Position) (new : List Issue) (d' : Draft) : Prop where
  issues : d'.issues = d.issues ++ new
  range : lo ≤ hi
  bounds : ∀ i ∈ new, lo ≤ i.position ∧ i.position ≤ hi

namespace Finds

theorem none (h : d'.issues = d.issues) (hrange : lo ≤ hi) : d.Finds lo hi [] d' :=
  ⟨by rw [h, List.append_nil], hrange, fun _ hi => absurd hi List.not_mem_nil⟩

theorem report {i : Issue} (hlo : lo ≤ i.position) (hhi : i.position ≤ hi) :
    d.Finds lo hi [i] (d.report i) :=
  ⟨rfl, hlo.trans hhi, List.forall_mem_singleton.2 ⟨hlo, hhi⟩⟩

theorem trans (h : d.Finds lo mid new d') (h' : d'.Finds mid hi new' d'') :
    d.Finds lo hi (new ++ new') d'' := by
  refine ⟨by rw [h'.issues, h.issues, List.append_assoc], h.range.trans h'.range,
    List.forall_mem_append.2 ⟨fun i hi => ?_, fun i hi => ?_⟩⟩
  · exact (h.bounds i hi).imp_right fun hle => hle.trans h'.range
  · exact (h'.bounds i hi).imp_left fun hle => h.range.trans hle

theorem mono (h : d.Finds lo hi new d') (hlo : lo' ≤ lo) (hhi : hi ≤ hi') :
    d.Finds lo' hi' new d' :=
  ⟨h.issues, (hlo.trans h.range).trans hhi,
    fun i hi => (h.bounds i hi).imp (fun hle => hlo.trans hle) fun hle => hle.trans hhi⟩

theorem le (h : d.Finds lo mid new d') (h' : d'.Finds mid hi new' d'') :
    ∀ i ∈ new, ∀ j ∈ new', i.position ≤ j.position :=
  fun i hi j hj => (h.bounds i hi).2.trans (h'.bounds j hj).1

theorem inSourceOrder (h : d.Finds lo mid new d') (h' : d'.Finds mid hi new' d'')
    (hnew : InSourceOrder new) (hnew' : InSourceOrder new') : InSourceOrder (new ++ new') :=
  List.pairwise_append.2 ⟨hnew, hnew', h.le h'⟩

end Finds

end Draft

/-- What may be wrong with a name on a device line, whatever its kind. -/
def Fault.OfName : Fault → Prop
  | reservedName _ | alreadyDefined _ => True
  | _ => False

/-- Why a device may be refused. -/
def Fault.OfDevice : Fault → Prop
  | alreadyDefined _ | invalidParameter _ _ _ | missingParameter _ _ | internal _ => True
  | _ => False

/-- What is found in one line or in one header among some tokens. -/
inductive Batch (tokens : List Token) : List Issue → Prop where
  | inOrder {issues : List Issue} : InSourceOrder issues → Batch tokens issues
  /-- A header has no closing bracket. Then comes what is wrong with its section, which is told of
  the heading. -/
  | header {heading found : Token} {s : Section} {faults : List Issue} :
      [heading, found] <:+: tokens → (∀ i ∈ faults, i.position = heading.position) →
        (∀ i ∈ faults, i.fault.kind = .missingHeader ∨ i.fault.kind = .invalidHeader) →
          Batch tokens ((Fault.unclosedHeader s found).on found :: faults)
  /-- The names of a device line, in the order of the text; then the devices that are refused, again
  in the order of the text; and then the end of the line, if that is wrong. -/
  | names {ts : List Token} {faults refusals ending : List Issue} :
      ts <:+: tokens → (∀ t ∈ ts, t.isMark .semicolon = false) →
        (faults.map (·.position)).Sublist (ts.map (·.position)) → (∀ i ∈ faults, i.fault.OfName) →
        (refusals.map (·.position)).Sublist (ts.map (·.position)) →
        (∀ i ∈ refusals, i.fault.OfDevice) →
        ending.length ≤ 1 →
        (∀ i ∈ ending, i.fault.kind = .syntaxError ∧ ∀ t ∈ ts, t.position ≤ i.position) →
          Batch tokens (faults ++ refusals ++ ending)

variable {tokens : List Token} {c c' : Cursor} {d d' : Draft} {i : Issue}

/-! ## Ends of lines -/

theorem stop_endLine (d : Draft) (c : Cursor) : (d.endLine c).1.stop = c.stop := by
  unfold Draft.endLine
  split
  · exact c.stop_advance
  split
  · rfl
  · exact Cursor.Among.stop_skipLine c

/-- At the end of a line at most one issue is found: at the last token, or at the one behind it. -/
theorem finds_endLine (h : c.Among tokens) (hplaces : InPlaces tokens)
    (hprevious : c.previous.position ≤ c.place) (d : Draft) :
    ∃ ending, d.Finds c.previous.position (d.endLine c).1.place ending (d.endLine c).2 ∧
      ending.length ≤ 1 ∧ ∀ i ∈ ending, i.fault.kind = .syntaxError := by
  unfold Draft.endLine
  split
  · exact ⟨[], .none rfl (hprevious.trans (h.place_le_advance hplaces)), by simp, by simp⟩
  split
  · exact ⟨_, .report (le_refl _) hprevious, by simp, by simp [Fault.on, Fault.kind]⟩
  · exact ⟨_, .report hprevious (h.place_le_skipLine hplaces), by simp,
      by simp [Fault.on, Fault.kind]⟩

theorem finds_abandonLine (h : c.Among tokens) (hplaces : InPlaces tokens) (hi : c.Meets i)
    (d : Draft) :
    d.Finds c.place (d.abandonLine c i).1.place [i] (d.abandonLine c i).2 := by
  obtain ⟨hlo, hhi⟩ := h.le_of_meets hplaces hi
  exact .report hlo hhi

/-- The last token that has been passed stands between the two cursors. -/
theorem Cursor.Among.previous_bounds {ts : List Token} (h : c.Among tokens)
    (hplaces : InPlaces tokens) (hpasses : c.Passes ts c') (hts : ts ≠ []) :
    c.place ≤ c'.previous.position ∧ c'.previous.position ≤ c'.place :=
  h.le_place hplaces hpasses (hpasses.previous_mem hts)

/-! ## Connection lines and monitor lines -/

/-- A line is read up to the second cursor, and what is found in it is in the order of the text. -/
def FindsInOrder (c : Cursor) (d : Draft) (x : Cursor × Draft) : Prop :=
  x.1.stop = c.stop ∧ ∃ new, d.Finds c.place x.1.place new x.2 ∧ InSourceOrder new

theorem findsInOrder_abandonLine (h : c.Among tokens) (hplaces : InPlaces tokens)
    (hi : c.Meets i) (d : Draft) : FindsInOrder c d (d.abandonLine c i) :=
  ⟨Cursor.Among.stop_skipLine c, _, finds_abandonLine h hplaces hi d,
    inSourceOrder_of_length_le_one (Nat.le_refl 1)⟩

section

variable {ts : List Token} {new : List Issue} {x : Cursor × Draft} (h : c.Among tokens)
  (hplaces : InPlaces tokens) (hpasses : c.Passes ts c') (hts : ts ≠ [])
include h hplaces hpasses

/-- What is found at tokens that have been passed stands between the two cursors. -/
theorem finds_passed (hissues : d'.issues = d.issues ++ new) (hon : ∀ i ∈ new, i.On ts) :
    d.Finds c.place c'.place new d' := by
  refine ⟨hissues, h.place_le_of_suffix hplaces ⟨ts, hpasses.ahead.symm⟩ hpasses.stop,
    fun i hi => ?_⟩
  obtain ⟨t, ht, hposition⟩ := hon i hi
  rw [hposition]
  exact h.le_place hplaces hpasses ht

include hts

/-- It does not stand behind the last of them. -/
theorem finds_up_to_previous (hissues : d'.issues = d.issues ++ new) (hon : ∀ i ∈ new, i.On ts) :
    d.Finds c.place c'.previous.position new d' := by
  refine ⟨hissues, (h.previous_bounds hplaces hpasses hts).1, fun i hi => ?_⟩
  obtain ⟨t, ht, hposition⟩ := hon i hi
  rw [hposition]
  exact ⟨(h.le_place hplaces hpasses ht).1, h.le_previous hplaces hpasses ht⟩

theorem FindsInOrder.after_comma (hfinds : d.Finds c.place c'.previous.position new d')
    (hnew : InSourceOrder new) (hrest : FindsInOrder c'.advance d' x) :
    FindsInOrder c d x := by
  obtain ⟨hstop, more, hmore, horder⟩ := hrest
  rw [c'.stop_advance, hpasses.stop] at hstop
  have hprevious : c'.previous.position ≤ c'.advance.place :=
    (h.previous_bounds hplaces hpasses hts).2.trans ((h.passes hpasses).place_le_advance hplaces)
  have hmore := hmore.mono hprevious (le_refl _)
  exact ⟨hstop, _, hfinds.trans hmore, hfinds.inSourceOrder hmore hnew horder⟩

theorem FindsInOrder.endLine (hfinds : d.Finds c.place c'.previous.position new d')
    (hnew : InSourceOrder new) : FindsInOrder c d (d'.endLine c') := by
  obtain ⟨ending, hending, hlength, -⟩ :=
    finds_endLine (h.passes hpasses) hplaces (h.previous_bounds hplaces hpasses hts).2 d'
  exact ⟨(stop_endLine d' c').trans hpasses.stop, _, hfinds.trans hending,
    hfinds.inSourceOrder hending hnew (inSourceOrder_of_length_le_one hlength)⟩

end

/-- Where a source is connected, at most one issue is found, at its name. -/
theorem attach_finds {t : Target} {index : Nat} {r : Reference}
    (h : d.attach t index r = .ok d') :
    ∃ new, d'.issues = d.issues ++ new ∧ new.length ≤ 1 ∧ ∀ i ∈ new, i.On r.named := by
  obtain ⟨output, pin, circuit, -, -, rfl⟩ | ⟨f, rfl⟩ := Draft.attach_cases h
  · exact ⟨[], (List.append_nil _).symm, by simp, by simp⟩
  · exact ⟨_, rfl, by simp, List.forall_mem_singleton.2 (Fault.on_on List.mem_cons_self)⟩

theorem finds_readSources (t : Target) (index : Nat) (c : Cursor) (d : Draft)
    (h : c.Among tokens) (hplaces : InPlaces tokens) :
    FindsInOrder c d (readSources t index c d) := by
  fun_induction readSources t index c d with
  | case1 index c d issue hread =>
    exact findsInOrder_abandonLine h hplaces (readReference_error h hread) d
  | case2 index c d source c' hread issue hattach =>
    obtain ⟨ts, hpasses, hnamed⟩ := readReference_passes h hread
    have hmeets : c.Meets issue := .passed hpasses ((attach_error hattach).mono hnamed)
    have hskip : d.abandonLine c' issue = d.abandonLine c issue := by
      rw [Draft.abandonLine, Draft.abandonLine, hpasses.skipLine_eq]
    rw [hskip]
    exact findsInOrder_abandonLine h hplaces hmeets d
  | case3 index c d source c' hread d' hattach hcomma ih =>
    obtain ⟨ts, hpasses, hnamed⟩ := readReference_passes h hread
    have hts : ts ≠ [] := List.ne_nil_of_mem (hnamed List.mem_cons_self)
    obtain ⟨new, hissues, hlength, hon⟩ := attach_finds hattach
    exact .after_comma h hplaces hpasses hts (finds_up_to_previous h hplaces hpasses hts hissues
        fun i hi => (hon i hi).mono hnamed)
      (inSourceOrder_of_length_le_one hlength) (ih (h.passes hpasses).advance)
  | case4 index c d source c' hread d' hattach hcomma =>
    obtain ⟨ts, hpasses, hnamed⟩ := readReference_passes h hread
    have hts : ts ≠ [] := List.ne_nil_of_mem (hnamed List.mem_cons_self)
    obtain ⟨new, hissues, hlength, hon⟩ := attach_finds hattach
    exact .endLine h hplaces hpasses hts (finds_up_to_previous h hplaces hpasses hts hissues
        fun i hi => (hon i hi).mono hnamed)
      (inSourceOrder_of_length_le_one hlength)

theorem finds_readConnectionLine (h : c.Among tokens) (hplaces : InPlaces tokens) (d : Draft) :
    FindsInOrder c d (readConnectionLine c d) := by
  unfold readConnectionLine
  split
  · rename_i hread
    exact findsInOrder_abandonLine h hplaces (readTarget_error h hread) d
  · rename_i t c' hread
    obtain ⟨ts, hpasses, -⟩ := readTarget_passes h hread
    obtain ⟨hstop, new, hfinds, horder⟩ :=
      finds_readSources t 0 c' d (h.passes hpasses) hplaces
    have hle : c.place ≤ c'.place :=
      h.place_le_of_suffix hplaces ⟨ts, hpasses.ahead.symm⟩ hpasses.stop
    exact ⟨hstop.trans hpasses.stop, new, hfinds.mono hle (le_refl _), horder⟩

theorem monitor_finds (d : Draft) (r : Reference) :
    ∃ new, (d.monitor r).issues = d.issues ++ new ∧ new.length ≤ 1 ∧ ∀ i ∈ new, i.On r.named := by
  unfold Draft.monitor
  split
  · rename_i houtput
    exact ⟨_, rfl, by simp, List.forall_mem_singleton.2 (output_error houtput)⟩
  split
  · exact ⟨[], (List.append_nil _).symm, by simp, by simp⟩
  all_goals exact ⟨_, rfl, by simp, List.forall_mem_singleton.2 (Fault.on_on List.mem_cons_self)⟩

theorem finds_readMonitorLine (c : Cursor) (d : Draft) (h : c.Among tokens)
    (hplaces : InPlaces tokens) : FindsInOrder c d (readMonitorLine c d) := by
  fun_induction readMonitorLine c d with
  | case1 c d issue hread =>
    exact findsInOrder_abandonLine h hplaces (readReference_error h hread) d
  | case2 c d r c' hread hcomma ih =>
    obtain ⟨ts, hpasses, hnamed⟩ := readReference_passes h hread
    have hts : ts ≠ [] := List.ne_nil_of_mem (hnamed List.mem_cons_self)
    obtain ⟨new, hissues, hlength, hon⟩ := monitor_finds d r
    exact .after_comma h hplaces hpasses hts (finds_up_to_previous h hplaces hpasses hts hissues
        fun i hi => (hon i hi).mono hnamed)
      (inSourceOrder_of_length_le_one hlength) (ih (h.passes hpasses).advance)
  | case3 c d r c' hread hcomma =>
    obtain ⟨ts, hpasses, hnamed⟩ := readReference_passes h hread
    have hts : ts ≠ [] := List.ne_nil_of_mem (hnamed List.mem_cons_self)
    obtain ⟨new, hissues, hlength, hon⟩ := monitor_finds d r
    exact .endLine h hplaces hpasses hts (finds_up_to_previous h hplaces hpasses hts hissues
        fun i hi => (hon i hi).mono hnamed)
      (inSourceOrder_of_length_le_one hlength)

/-! ## Device lines -/

/-- The token of a name is taken, or what is wrong with it is found there. -/
theorem takeName_finds {names read : List (NameId × Token)} {t : Token}
    (h : d.takeName names t = .ok (read, d')) :
    (t.kind ≠ .endOfFile ∧ ∀ m, t.kind ≠ .mark m) ∧
      ∃ new faults, read = names ++ new ∧ d'.issues = d.issues ++ faults ∧
        (new.map (·.2.position)).Sublist [t.position] ∧
        (faults.map (·.position)).Sublist [t.position] ∧ ∀ i ∈ faults, i.fault.OfName := by
  unfold Draft.takeName at h
  split at h
  · rename_i id hkind
    refine ⟨by simp [hkind], ?_⟩
    split at h <;> cases h
    · exact ⟨[], [_], (List.append_nil _).symm, rfl, List.nil_sublist _, .refl _,
        List.forall_mem_singleton.2 trivial⟩
    · exact ⟨[(id, t)], [], rfl, (List.append_nil _).symm, .refl _, List.nil_sublist _,
        fun _ hi => absurd hi List.not_mem_nil⟩
  · rename_i hkind
    cases h
    exact ⟨by simp [hkind], [], [_], (List.append_nil _).symm, rfl, List.nil_sublist _, .refl _,
      List.forall_mem_singleton.2 trivial⟩
  · cases h

theorem takeName_error {names : List (NameId × Token)} {t : Token}
    (h : d.takeName names t = .error i) : i.position = t.position := by
  unfold Draft.takeName at h
  split at h
  · split at h <;> cases h
  · cases h
  · cases h
    rfl

/-- The names of a device line are read, or not all of them, and what is wrong with names is found
on the way. -/
theorem readNames_finds (names : List (NameId × Token)) (c : Cursor) (d : Draft)
    (h : c.Among tokens) :
    ∃ ts c' faults, c.Passes ts c' ∧ (readNames names c d).1.issues = d.issues ++ faults ∧
      (faults.map (·.position)).Sublist (ts.map (·.position)) ∧ (∀ i ∈ faults, i.fault.OfName) ∧
      ((∃ i, (readNames names c d).2 = .error i ∧ c'.Meets i) ∨
        ∃ new, (readNames names c d).2 = .ok (names ++ new, c') ∧ ts ≠ [] ∧
          (new.map (·.2.position)).Sublist (ts.map (·.position))) := by
  fun_induction readNames names c d with
  | case1 names c d hahead =>
    refine ⟨[], c, [], .refl c, (List.append_nil _).symm, .refl _, by simp, .inl ⟨_, rfl, .here ?_⟩⟩
    rw [Cursor.place, Cursor.current, hahead]
    rfl
  | case2 names c d t rest hahead issue htake =>
    refine ⟨[], c, [], .refl c, (List.append_nil _).symm, .refl _, by simp, .inl ⟨_, rfl, .here ?_⟩⟩
    rw [Cursor.place, Cursor.current_cons hahead]
    exact takeName_error htake
  | case3 names c d t rest hahead read d' htake hcomma ih =>
    obtain ⟨⟨hend, hmark⟩, new, faults, rfl, hissues, hnew, hfaults, hofName⟩ := takeName_finds htake
    rw [← Cursor.current_cons hahead] at hend hmark hnew hfaults
    have hname := h.passes_advance hend (hmark _) (hmark _)
    have hpasses := hname.trans (h.advance.passes_advance_of_isAt hcomma (by simp) (by simp))
    obtain ⟨ts, c', more, hpasses', hissues', hmore, hofName', hresult⟩ := ih h.advance.advance
    refine ⟨_, c', faults ++ more, hpasses.trans hpasses', ?_, ?_,
      List.forall_mem_append.2 ⟨hofName, hofName'⟩, ?_⟩
    · rw [hissues', hissues, List.append_assoc]
    · rw [List.map_append, List.map_append]
      exact (hfaults.trans (by simp)).append hmore
    rcases hresult with ⟨i, hi, hmeets⟩ | ⟨new', hread, -, hnew'⟩
    · exact .inl ⟨i, hi, hmeets⟩
    · refine .inr ⟨new ++ new', by rw [hread, List.append_assoc], by simp, ?_⟩
      rw [List.map_append, List.map_append]
      exact (hnew.trans (by simp)).append hnew'
  | case4 names c d t rest hahead read d' htake hcomma =>
    obtain ⟨⟨hend, hmark⟩, new, faults, rfl, hissues, hnew, hfaults, hofName⟩ := takeName_finds htake
    rw [← Cursor.current_cons hahead] at hend hmark hnew hfaults
    exact ⟨_, c.advance, faults, h.passes_advance hend (hmark _) (hmark _), hissues, hfaults, hofName,
      .inr ⟨new, rfl, by simp, hnew⟩⟩

/-- A device is added, or that it is refused is found at its name. -/
theorem declare_finds (d : Draft) (kind : DeviceKind) (parameter : Option UInt32)
    (name : NameId × Token) :
    ∃ refusals, (d.declare kind parameter name).issues = d.issues ++ refusals ∧
      (refusals.map (·.position)).Sublist [name.2.position] ∧ ∀ i ∈ refusals, i.fault.OfDevice := by
  simp only [Draft.declare]
  split
  · exact ⟨[], (List.append_nil _).symm, List.nil_sublist _, by simp⟩
  all_goals exact ⟨[_], rfl, .refl _, List.forall_mem_singleton.2 trivial⟩

theorem foldl_declare_finds (kind : DeviceKind) (parameter : Option UInt32)
    (names : List (NameId × Token)) (d : Draft) :
    ∃ refusals, (names.foldl (·.declare kind parameter ·) d).issues = d.issues ++ refusals ∧
      (refusals.map (·.position)).Sublist (names.map (·.2.position)) ∧
      ∀ i ∈ refusals, i.fault.OfDevice := by
  induction names generalizing d with
  | nil => exact ⟨[], (List.append_nil _).symm, List.nil_sublist _, by simp⟩
  | cons name names ih =>
    obtain ⟨refusals, hissues, hplaces, hkinds⟩ := declare_finds d kind parameter name
    obtain ⟨more, hmore, hplaces', hkinds'⟩ := ih (d.declare kind parameter name)
    refine ⟨refusals ++ more, ?_, ?_, List.forall_mem_append.2 ⟨hkinds, hkinds'⟩⟩
    · rw [List.foldl_cons, hmore, hissues, List.append_assoc]
    · rw [List.map_append]
      exact hplaces.append hplaces'

/-- A line is read up to the second cursor, and what is found in it is a batch. -/
def FindsBatch (tokens : List Token) (c : Cursor) (d : Draft) (x : Cursor × Draft) : Prop :=
  x.1.stop = c.stop ∧ ∃ new, d.Finds c.place x.1.place new x.2 ∧ Batch tokens new

theorem FindsInOrder.findsBatch {x : Cursor × Draft} (h : FindsInOrder c d x) :
    FindsBatch tokens c d x := by
  obtain ⟨hstop, new, hfinds, horder⟩ := h
  exact ⟨hstop, new, hfinds, .inOrder horder⟩

/-- A device line that is given up: first come the faults of names, then why it is given up. -/
theorem FindsInOrder.of_names {ts : List Token} {faults : List Issue} {x : Cursor × Draft}
    (h : c.Among tokens) (hplaces : InPlaces tokens) (hpasses : c.Passes ts c')
    (hissues : d'.issues = d.issues ++ faults)
    (hfaults : (faults.map (·.position)).Sublist (ts.map (·.position)))
    (hrest : FindsInOrder c' d' x) : FindsInOrder c d x := by
  obtain ⟨hstop, more, hmore, horder⟩ := hrest
  have hts : InPlaces ts := hplaces.sublist
    (.trans (by rw [hpasses.ahead, List.append_assoc]; exact List.sublist_append_left _ _)
      h.isInfix.sublist)
  have hfinds := finds_passed h hplaces hpasses hissues fun i hi => Issue.on_of_sublist hfaults hi
  exact ⟨hstop.trans hpasses.stop, _, hfinds.trans hmore,
    hfinds.inSourceOrder hmore (inSourceOrder_of_sublist hfaults hts) horder⟩

theorem finds_readDeviceLine (h : c.Among tokens) (hplaces : InPlaces tokens) (d : Draft) :
    FindsBatch tokens c d (readDeviceLine c d) := by
  obtain ⟨ts, c₁, faults, hpasses, hissues, hfaults, hofName, hresult⟩ := readNames_finds [] c d h
  have hamong₁ := h.passes hpasses
  unfold readDeviceLine
  generalize readNames [] c d = x at hissues hresult
  obtain ⟨d₁, result⟩ := x
  dsimp only at hissues hresult
  rcases hresult with ⟨issue, rfl, hmeets⟩ | ⟨names, rfl, hts, hnames⟩
  · have hskip : d₁.abandonLine c issue = d₁.abandonLine c₁ issue := by
      rw [Draft.abandonLine, Draft.abandonLine, hpasses.skipLine_eq]
    dsimp only
    rw [hskip]
    exact (FindsInOrder.of_names h hplaces hpasses hissues hfaults
      (findsInOrder_abandonLine hamong₁ hplaces hmeets d₁)).findsBatch
  dsimp only
  split
  · rename_i hkind
    exact (FindsInOrder.of_names h hplaces hpasses hissues hfaults
      (findsInOrder_abandonLine hamong₁ hplaces (readKind_error hamong₁ hkind) d₁)).findsBatch
  rename_i kind parameter c₂ hkind
  obtain ⟨us, hpasses'⟩ := readKind_passes hamong₁ hkind
  have hall := hpasses.trans hpasses'
  have hne : ts ++ us ≠ [] := List.append_ne_nil_of_left_ne_nil hts us
  obtain ⟨refusals, hissues', hrefusals, hofDevice⟩ :=
    foldl_declare_finds kind parameter ([] ++ names) d₁
  set d₂ : Draft := ([] ++ names).foldl (Draft.declare · kind parameter ·) d₁
  have hrefusals := hrefusals.trans hnames
  have hfound : d₂.issues = d.issues ++ (faults ++ refusals) := by
    rw [hissues', hissues, List.append_assoc]
  obtain ⟨ending, hending, hlength, hwrong⟩ :=
    finds_endLine (h.passes hall) hplaces (h.previous_bounds hplaces hall hne).2 d₂
  have hon : ∀ i ∈ faults ++ refusals, i.On (ts ++ us) :=
    List.forall_mem_append.2
      ⟨fun i hi => (Issue.on_of_sublist hfaults hi).mono (List.subset_append_left ts us),
        fun i hi => (Issue.on_of_sublist hrefusals hi).mono (List.subset_append_left ts us)⟩
  have hfinds := finds_up_to_previous h hplaces hall hne hfound hon
  refine ⟨(stop_endLine d₂ c₂).trans hall.stop, _, hfinds.trans hending, .names ?_ hpasses.plain hfaults
    hofName hrefusals hofDevice hlength fun i hi => ⟨hwrong i hi, fun t ht => ?_⟩⟩
  · refine .trans ?_ h.isInfix
    rw [hpasses.ahead, List.append_assoc]
    exact (List.prefix_append ts _).isInfix
  · exact (h.le_previous hplaces hall (List.mem_append_left us ht)).trans (hending.bounds i hi).1

/-! ## Sections -/

theorem finds_readLine (s : Section) (h : c.Among tokens) (hplaces : InPlaces tokens) (d : Draft) :
    FindsBatch tokens c d (readLine s c d) := by
  cases s with
  | devices => exact finds_readDeviceLine h hplaces d
  | conns => exact (finds_readConnectionLine h hplaces d).findsBatch
  | monit => exact (finds_readMonitorLine c d h hplaces).findsBatch

namespace Draft

variable {d'' : Draft} {lo mid hi lo' hi' : Position}

/-- What is found in a part of a text is batches from left to right. -/
def FindsBatches (tokens : List Token) (d : Draft) (lo hi : Position) (d' : Draft) : Prop :=
  ∃ batches : List (List Issue), d.Finds lo hi batches.flatten d' ∧
    (∀ issues ∈ batches, Batch tokens issues) ∧
    batches.Pairwise fun issues later => ∀ i ∈ issues, ∀ j ∈ later, i.position ≤ j.position

namespace FindsBatches

theorem refl (d : Draft) (hrange : lo ≤ hi) : d.FindsBatches tokens lo hi d :=
  ⟨[], .none rfl hrange, fun _ h => absurd h List.not_mem_nil, .nil⟩

theorem one {new : List Issue} (h : d.Finds lo hi new d') (hnew : Batch tokens new) :
    d.FindsBatches tokens lo hi d' :=
  ⟨[new], by simpa using h, List.forall_mem_singleton.2 hnew, List.pairwise_singleton _ _⟩

theorem trans (h : d.FindsBatches tokens lo mid d') (h' : d'.FindsBatches tokens mid hi d'') :
    d.FindsBatches tokens lo hi d'' := by
  obtain ⟨batches, hfinds, hbatches, hpairwise⟩ := h
  obtain ⟨more, hfinds', hmore, hpairwise'⟩ := h'
  refine ⟨batches ++ more, by rw [List.flatten_append]; exact hfinds.trans hfinds',
    List.forall_mem_append.2 ⟨hbatches, hmore⟩,
    List.pairwise_append.2 ⟨hpairwise, hpairwise', fun issues hissues later hlater i hi j hj => ?_⟩⟩
  exact hfinds.le hfinds' i (List.mem_flatten_of_mem hissues hi) j
    (List.mem_flatten_of_mem hlater hj)

theorem mono (h : d.FindsBatches tokens lo hi d') (hlo : lo' ≤ lo) (hhi : hi ≤ hi') :
    d.FindsBatches tokens lo' hi' d' := by
  obtain ⟨batches, hfinds, hbatches, hpairwise⟩ := h
  exact ⟨batches, hfinds.mono hlo hhi, hbatches, hpairwise⟩

end FindsBatches

end Draft

/-- What is found in the lines of a section is batches from left to right. -/
theorem finds_readLines (s : Section) (limit left : Nat) (c : Cursor) (d : Draft)
    (h : c.Among tokens) (hplaces : InPlaces tokens) :
    d.FindsBatches tokens c.place c.stop.position (readLines s limit left c d) := by
  induction left generalizing c d with
  | zero =>
    simp only [readLines]
    split
    · exact .refl d (h.place_le_stop hplaces)
    · exact .one (.report (le_refl _) (h.place_le_stop hplaces))
        (.inOrder (inSourceOrder_of_length_le_one (Nat.le_refl 1)))
  | succ left ih =>
    simp only [readLines]
    split
    · exact .refl d (h.place_le_stop hplaces)
    · obtain ⟨hstop, new, hfinds, hnew⟩ := finds_readLine s h hplaces d
      have hrest := ih _ (readLine s c d).2 (h.of_suffix (suffix_readLine s c d) hstop)
      rw [hstop] at hrest
      exact .trans (.one hfinds hnew) hrest

/-! ## Pieces of a file -/

theorem issues_foldl_report (limit : Nat) (issues : List Issue) (d : Draft) :
    ((issues.map Act.report).foldl (Act.apply limit) d).issues = d.issues ++ issues := by
  induction issues generalizing d with
  | nil => exact (List.append_nil _).symm
  | cons i issues ih =>
    rw [List.map_cons, List.foldl_cons, ih]
    exact List.append_assoc d.issues [i] issues

theorem finds_reports {lo hi p : Position} (issues : List Issue) (limit : Nat) (d : Draft)
    (h : ∀ i ∈ issues, i.position = p) (hlo : lo ≤ p) (hhi : p ≤ hi) :
    d.FindsBatches tokens lo hi ((issues.map Act.report).foldl (Act.apply limit) d) :=
  .one ⟨issues_foldl_report limit issues d, hlo.trans hhi, fun i hi => by
    rw [h i hi]
    exact ⟨hlo, hhi⟩⟩ (.inOrder (inSourceOrder_of_position_eq h))

theorem Cursor.exists_cons_current (c : Cursor) : ∃ rest, c.ahead ++ [c.stop] = c.current :: rest := by
  unfold current
  cases c.ahead with
  | nil => exact ⟨[], rfl⟩
  | cons t rest => exact ⟨rest ++ [c.stop], rfl⟩

variable {limit : Nat} {reported : List Section} {s : Section} {chunk : Chunk} {eof : Token}
  {q : Plan} {lo : Position}

/-- The piece is one among some tokens, the token after it included. -/
def Chunk.Among (chunk : Chunk) (tokens : List Token) : Prop :=
  (chunk.tokens ++ [chunk.stop]) <:+: tokens

theorem Chunk.Among.cursor (h : chunk.Among tokens) (hcut : chunk.Cut eof)
    (heof : eof.kind = .endOfFile) : chunk.cursor.Among tokens :=
  ⟨.trans (List.suffix_cons chunk.opening (chunk.body ++ [chunk.stop])).isInfix h,
    hcut.kind_stop heof⟩

theorem Chunk.Among.opening_le (h : chunk.Among tokens) (hplaces : InPlaces tokens) :
    chunk.opening.position ≤ chunk.second.position :=
  (List.pairwise_cons.1 (hplaces.sublist h.sublist)).1 _ chunk.cursor.current_mem

/-- What is wrong with a header is a batch, and stands before the lines of its section. -/
theorem finds_header (faults : List Issue) (h : chunk.Among tokens) (hplaces : InPlaces tokens)
    (hcut : chunk.Cut eof) (heof : eof.kind = .endOfFile) (hs : chunk.heading? = some s)
    (hposition : ∀ i ∈ faults, i.position = chunk.second.position)
    (hkind : ∀ i ∈ faults, i.fault.kind = .missingHeader ∨ i.fault.kind = .invalidHeader)
    (limit : Nat) (d : Draft) :
    chunk.lines.Among tokens ∧ chunk.lines.stop = chunk.stop ∧
      d.FindsBatches tokens chunk.opening.position chunk.lines.place
        ((((if chunk.closed then [] else [(Fault.unclosedHeader s chunk.third).on chunk.third]) ++
          faults).map Act.report).foldl (Act.apply limit) d) := by
  obtain ⟨id, hkind'⟩ := Chunk.heading?_eq_some_iff.1 hs
  have hcursor := h.cursor hcut heof
  have hpasses : chunk.cursor.Passes [chunk.second] chunk.cursor.advance :=
    hcursor.passes_advance (by simp [hkind']) (by simp [hkind']) (by simp [hkind'])
  have hbody : chunk.body = chunk.second :: chunk.cursor.advance.ahead := hpasses.ahead
  have hthird : chunk.cursor.advance.current = chunk.third := by
    rw [Chunk.third, hbody, List.tail_cons, Cursor.current, chunk.cursor.stop_advance]
    rfl
  have hlines : chunk.lines = (readCloseSquare s chunk.cursor.advance d).1 :=
    (congrArg Prod.fst (hcut.readCloseSquare_eq heof hs d)).symm
  have hsuffix : chunk.lines.ahead <:+ chunk.cursor.advance.ahead :=
    hlines ▸ suffix_readCloseSquare s _ d
  have hstop : chunk.lines.stop = chunk.cursor.advance.stop := hlines ▸ stop_readCloseSquare s _ d
  have hsecond := h.opening_le hplaces
  have hlast : chunk.second.position ≤ chunk.third.position := by
    rw [← hthird]
    exact (hcursor.le_place hplaces hpasses (List.mem_singleton_self _)).2
  have hplace : chunk.third.position ≤ chunk.lines.place := by
    rw [← hthird]
    exact hcursor.advance.place_le_of_suffix hplaces hsuffix hstop
  refine ⟨hcursor.advance.of_suffix hsuffix hstop, hstop.trans chunk.cursor.stop_advance, ?_⟩
  split
  · exact finds_reports _ limit d hposition hsecond (hlast.trans hplace)
  · refine .one ⟨issues_foldl_report limit _ d, hsecond.trans (hlast.trans hplace),
      List.forall_mem_cons.2 ⟨⟨hsecond.trans hlast, hplace⟩, fun i hi => ?_⟩⟩
      (.header ?_ hposition hkind)
    · rw [hposition i hi]
      exact ⟨hsecond, hlast.trans hplace⟩
    · obtain ⟨rest, hrest⟩ := chunk.cursor.advance.exists_cons_current
      rw [hthird, chunk.cursor.stop_advance] at hrest
      refine .trans ?_ hcursor.isInfix
      have hall : chunk.cursor.ahead ++ [chunk.cursor.stop] =
          [chunk.second, chunk.third] ++ rest := by
        rw [hpasses.ahead, List.append_assoc, hrest]
        rfl
      rw [hall]
      exact (List.prefix_append _ rest).isInfix

/-- What is found in a piece of a file stands in it, in batches from left to right. -/
theorem finds_act {d₀ : Draft} (h : chunk.Among tokens) (hplaces : InPlaces tokens)
    (hcut : chunk.Cut eof) (heof : eof.kind = .endOfFile)
    (hq : d₀.FindsBatches tokens lo chunk.opening.position (q.acts.foldl (Act.apply limit) d₀)) :
    d₀.FindsBatches tokens lo chunk.stop.position
      ((q.act reported chunk).acts.foldl (Act.apply limit) d₀) := by
  have hcursor := h.cursor hcut heof
  have hstop : chunk.second.position ≤ chunk.stop.position := hcursor.place_le_stop hplaces
  unfold Plan.act
  split
  · rw [List.foldl_append]
    exact hq.trans (finds_reports [_] limit _
      (List.forall_mem_singleton.2 rfl) (h.opening_le hplaces) hstop)
  · rename_i s hs
    have hacts : (if chunk.closed then []
        else [Act.report ((Fault.unclosedHeader s chunk.third).on chunk.third)]) =
        (if chunk.closed then [] else
          [(Fault.unclosedHeader s chunk.third).on chunk.third]).map Act.report := by
      split <;> rfl
    dsimp only
    rw [hacts]
    split
    · obtain ⟨hlines, hend, hfinds⟩ := finds_header
        [(Fault.misplacedSection s).on chunk.second] h hplaces hcut heof hs
        (List.forall_mem_singleton.2 rfl) (List.forall_mem_singleton.2 (.inr rfl)) limit
        (q.acts.foldl (Act.apply limit) d₀)
      rw [List.map_append, List.foldl_append] at hfinds
      rw [List.append_assoc, List.foldl_append, List.foldl_append]
      exact hq.trans (hfinds.mono (le_refl _) (hend ▸ hlines.place_le_stop hplaces))
    · obtain ⟨hlines, hend, hfinds⟩ := finds_header
        ((q.missing reported s.rank).map fun m => (Fault.missingSection m (some s)).on chunk.second)
        h hplaces hcut heof hs (by simp [Fault.on]) (by simp [Fault.on, Fault.kind]) limit
        (q.acts.foldl (Act.apply limit) d₀)
      have hbody := finds_readLines s limit limit chunk.lines
        ((((if chunk.closed then [] else [(Fault.unclosedHeader s chunk.third).on chunk.third]) ++
          (q.missing reported s.rank).map fun m =>
            (Fault.missingSection m (some s)).on chunk.second).map Act.report).foldl
          (Act.apply limit) (q.acts.foldl (Act.apply limit) d₀)) hlines hplaces
      rw [hend] at hbody
      have hall := hq.trans (hfinds.trans hbody)
      rw [List.map_append, List.map_map, List.foldl_append] at hall
      simp only [List.foldl_append]
      exact hall

/-! ## Files -/

/-- The pieces go from one token up to another: each ends where the next one begins. -/
def Joined (finish : Token) : Token → List Chunk → Prop
  | t, [] => t = finish
  | t, chunk :: rest => chunk.opening = t ∧ Joined finish chunk.stop rest

/-- The first opening bracket, or the end of the file. -/
def firstOpening (finish : Token) (pieces : List Chunk) : Token :=
  (pieces.head?.map Chunk.opening).getD finish

theorem exists_cons_firstOpening (finish : Token) (pieces : List Chunk) :
    ∃ after, pieces.flatMap Chunk.tokens ++ [finish] = firstOpening finish pieces :: after := by
  cases pieces with
  | nil => exact ⟨[], rfl⟩
  | cons chunk rest => exact ⟨chunk.body ++ rest.flatMap Chunk.tokens ++ [finish], by
      simp [firstOpening, Chunk.tokens]⟩

theorem joined_chunks (finish : Token) (ts : List Token) :
    Joined finish (firstOpening finish (chunks finish ts).2) (chunks finish ts).2 := by
  induction ts with
  | nil => rfl
  | cons t ts ih =>
    simp only [chunks]
    split
    · exact ⟨rfl, ih⟩
    · exact ih

/-- A piece and the token after it stand together in the file. -/
theorem among_of_mem_chunks (finish : Token) (ts : List Token) :
    ∀ chunk ∈ (chunks finish ts).2, chunk.Among (ts ++ [finish]) := by
  induction ts with
  | nil => simp [chunks]
  | cons t ts ih =>
    have hrest : ∀ chunk ∈ (chunks finish ts).2, chunk.Among (t :: ts ++ [finish]) :=
      fun chunk hchunk => (ih chunk hchunk).trans (List.suffix_cons t _).isInfix
    simp only [chunks]
    split
    · obtain ⟨after, hafter⟩ := exists_cons_firstOpening finish (chunks finish ts).2
      refine List.forall_mem_cons.2 ⟨List.IsPrefix.isInfix ⟨after, ?_⟩, hrest⟩
      have hts : (chunks finish ts).1 ++ ((chunks finish ts).2.flatMap Chunk.tokens ++ [finish]) =
          ts ++ [finish] := by
        rw [← List.append_assoc, chunks_flatMap_tokens]
      rw [hafter] at hts
      rw [List.cons_append, ← hts]
      simp [Chunk.tokens, firstOpening]
    · exact hrest

theorem finds_foldl_act {d₀ : Draft} {t : Token} {pieces : List Chunk} (hplaces : InPlaces tokens)
    (heof : eof.kind = .endOfFile) (hpieces : ∀ chunk ∈ pieces, chunk.Among tokens ∧ chunk.Cut eof)
    (hjoined : Joined eof t pieces)
    (hq : d₀.FindsBatches tokens lo t.position (q.acts.foldl (Act.apply limit) d₀)) :
    d₀.FindsBatches tokens lo eof.position
      ((pieces.foldl (Plan.act reported) q).acts.foldl (Act.apply limit) d₀) := by
  induction pieces generalizing q t with
  | nil =>
    rw [show t = eof from hjoined] at hq
    exact hq
  | cons chunk pieces ih =>
    obtain ⟨⟨hamong, hcut⟩, hpieces⟩ := List.forall_mem_cons.1 hpieces
    obtain ⟨rfl, hjoined⟩ := hjoined
    exact ih hpieces hjoined (finds_act hamong hplaces hcut heof hq)

/-- What is found in a file is batches from left to right. -/
theorem finds_readFile (limit : Nat) {ts : List Token} (heof : eof.kind = .endOfFile)
    (hplaces : InPlaces (ts ++ [eof])) (d : Draft) :
    ∃ lo hi, d.FindsBatches (ts ++ [eof]) lo hi (readFile limit ts eof d) := by
  have hpieces : ∀ chunk ∈ (chunks eof ts).2, chunk.Among (ts ++ [eof]) ∧ chunk.Cut eof :=
    fun chunk hchunk => ⟨among_of_mem_chunks eof ts chunk hchunk, cut_of_mem_chunks chunk hchunk⟩
  have hclose : ∀ (reported : List Section) (q : Plan) (lo : Position),
      d.FindsBatches (ts ++ [eof]) lo eof.position (q.acts.foldl (Act.apply limit) d) →
        d.FindsBatches (ts ++ [eof]) lo eof.position
          ((q.finish reported eof).foldl (Act.apply limit) d) := by
    intro reported q lo hq
    have hmissing : Draft.FindsBatches (ts ++ [eof]) _ eof.position eof.position _ :=
      finds_reports ((q.missing reported Section.all.length).map fun m =>
        (Fault.missingSection m none).on eof) limit (q.acts.foldl (Act.apply limit) d)
        (by simp [Fault.on]) (le_refl _) (le_refl _)
    rw [List.map_map] at hmissing
    rw [Plan.finish, List.foldl_append]
    exact hq.trans hmissing
  rw [readFile_eq_plan limit ts d heof]
  cases hbefore : (chunks eof ts).1 with
  | nil =>
    exact ⟨_, _, hclose [] _ _ (finds_foldl_act hplaces heof hpieces (joined_chunks eof ts)
      (.refl d (le_refl _)))⟩
  | cons t rest =>
    have hfirst : t.position ≤ (firstOpening eof (chunks eof ts).2).position := by
      obtain ⟨after, hafter⟩ := exists_cons_firstOpening eof (chunks eof ts).2
      rw [← chunks_flatMap_tokens eof ts, hbefore, List.append_assoc, hafter] at hplaces
      exact (List.pairwise_append.1 hplaces).2.2 t List.mem_cons_self _ List.mem_cons_self
    exact ⟨_, _, hclose [.devices] _ _ (finds_foldl_act hplaces heof hpieces (joined_chunks eof ts)
      (.one (.report (le_refl _) hfirst)
        (.inOrder (inSourceOrder_of_length_le_one (Nat.le_refl 1)))))⟩

/-- **The order of diagnostics.** Whatever the text and the board that it is read onto, its
diagnostics are those of the scan, each behind the one before it, and then those of the reader, in
batches: what is found in one line or one header does not stand behind what is found in a later one.
Within a batch the issues are in the order of the text, but for a header without its closing bracket
and for the names of a device line. -/
theorem readOnto_batches (b : Board) (limit : Nat) (source : String) :
    let scanned := scan b.names source.toList
    let lines := (Text.sourceLines source.toList).toArray
    ∃ batches : List (List Issue),
      (readOnto b limit source).diagnostics =
        (scanned.issues ++ batches.flatten).map (·.diagnostic lines) ∧
      scanned.issues.Pairwise (fun i j => i.position < j.position) ∧
      (∀ i ∈ scanned.issues, i.fault.kind = .invalidCharacter) ∧
      (∀ issues ∈ batches, Batch (scanned.tokens ++ [scanned.finish]) issues) ∧
      batches.Pairwise fun issues later => ∀ i ∈ issues, ∀ j ∈ later, i.position ≤ j.position := by
  intro scanned lines
  have hplaces : InPlaces (scanned.tokens ++ [scanned.finish]) :=
    (List.pairwise_map.1 (pairwise_places b.names source.toList)).imp le_of_lt
  have heof : scanned.finish.kind = .endOfFile := rfl
  obtain ⟨lo, hi, batches, hfinds, hbatches, hpairwise⟩ :=
    finds_readFile limit heof hplaces
      { circuit := b.circuit, probes := b.probes }
  refine ⟨batches, ?_, List.pairwise_map.1 (pairwise_strays b.names source.toList), ?_, hbatches,
    hpairwise⟩
  · have hissues := hfinds.issues
    rw [List.nil_append] at hissues
    rw [← hissues]
    rfl
  · intro i hi
    obtain ⟨stray, -, rfl⟩ := List.mem_map.1 hi
    rfl

/-- A name that comes twice is reported before the device is refused that has it first. -/
theorem repeatedName_out_of_order :
    ¬((readOnto (.empty 20) 500 "[devices]\nA, A = AND(20);\n[conns]\n[monit]\n").diagnostics.map
      (·.position)).Pairwise (· ≤ ·) := by
  decide +kernel

end Breadboard.Definition
