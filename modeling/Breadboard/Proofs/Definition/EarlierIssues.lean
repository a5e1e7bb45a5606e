import Breadboard.Proofs.Definition.Sections

/-!
# Issues that were found before

A reader adds to the issues of a draft and does not look at them. `Draft.since` puts issues before
those of a draft; whatever is read into such a draft comes to the same, with the issues put before
those that are found.

* `readLine_since`, `readLines_since`: what is read of a section does not depend on the issues.
* `foldl_readChunk_since`: neither does what is read of a file.
-/
namespace Breadboard.Definition

/-- The draft, with issues that were found before its own. -/
def Draft.since (is : List Issue) (d : Draft) : Draft := { d with issues := is ++ d.issues }

variable (is : List Issue) (d : Draft)

namespace Draft

@[simp]
theorem circuit_since : (d.since is).circuit = d.circuit := rfl

@[simp]
theorem probes_since : (d.since is).probes = d.probes := rfl

@[simp]
theorem declared_since : (d.since is).declared = d.declared := rfl

@[simp]
theorem report_since (i : Issue) : (d.since is).report i = (d.report i).since is := by
  simp [report, since]

theorem report_eq_since (i : Issue) (h : d.issues = []) : d.report i = d.since [i] := by
  simp [report, since, h]

/-- What each step leaves behind the issues, all steps together do. -/
theorem foldl_since {α : Type} {f : Draft → α → Draft}
    (hf : ∀ (d : Draft) a, f (d.since is) a = (f d a).since is) (as : List α) :
    as.foldl f (d.since is) = (as.foldl f d).since is := by
  induction as generalizing d with
  | nil => rfl
  | cons a as ih => rw [List.foldl_cons, hf, ih, List.foldl_cons]

theorem endLine_since (c : Cursor) :
    (d.since is).endLine c = ((d.endLine c).1, (d.endLine c).2.since is) := by
  simp only [endLine, report_since]
  split
  · rfl
  · split <;> rfl

theorem abandonLine_since (c : Cursor) (i : Issue) :
    (d.since is).abandonLine c i =
      ((d.abandonLine c i).1, (d.abandonLine c i).2.since is) := by
  simp only [abandonLine, report_since]

end Draft

/-! ## Device lines -/

theorem takeName_since (names : List (NameId × Token)) (t : Token) :
    (d.since is).takeName names t =
      (d.takeName names t).map fun (names, d) => (names, d.since is) := by
  simp only [Draft.takeName, Draft.declared_since, Draft.report_since]
  split
  · split <;> rfl
  all_goals rfl

theorem readNames_since (names : List (NameId × Token)) (c : Cursor) :
    readNames names c (d.since is) =
      ((readNames names c d).1.since is, (readNames names c d).2) := by
  fun_induction readNames names c d with
  | case1 names c d hend =>
    rw [readNames]
    split
    · rfl
    · simp_all
  | case2 names c d t rest hc issue htake =>
    rw [readNames_cons hc, takeName_since, htake]
    rfl
  | case3 names c d t rest hc names' d' htake hcomma ih =>
    rw [readNames_cons hc, takeName_since, htake]
    simp only [Except.map, hcomma, if_true]
    exact ih
  | case4 names c d t rest hc names' d' htake hcomma =>
    rw [readNames_cons hc, takeName_since, htake]
    simp only [Except.map, hcomma, if_false, Bool.false_eq_true]

theorem declare_since (kind : DeviceKind) (parameter : Option UInt32) (name : NameId × Token) :
    (d.since is).declare kind parameter name = (d.declare kind parameter name).since is := by
  simp only [Draft.declare, Draft.circuit_since, Draft.report_since]
  split <;> rfl

theorem readDeviceLine_since (c : Cursor) :
    readDeviceLine c (d.since is) =
      ((readDeviceLine c d).1, (readDeviceLine c d).2.since is) := by
  simp only [readDeviceLine, readNames_since]
  generalize readNames [] c d = read
  obtain ⟨d', issue | ⟨names, c'⟩⟩ := read
  · exact Draft.abandonLine_since is d' c issue
  · dsimp only
    cases readKind c' with
    | error issue => exact Draft.abandonLine_since is d' c' issue
    | ok x =>
      dsimp only
      rw [Draft.foldl_since is _ fun d name => declare_since is d _ _ name]
      exact Draft.endLine_since is _ _

/-! ## References and the lines made of them -/

@[simp]
theorem output_since (r : Reference) : (d.since is).output r = d.output r := rfl

theorem readTarget_since (c : Cursor) : readTarget (d.since is) c = readTarget d c := rfl

theorem attach_since (t : Target) (index : Nat) (source : Reference) :
    (d.since is).attach t index source = (d.attach t index source).map (·.since is) := by
  simp only [Draft.attach, output_since, Draft.circuit_since, Draft.report_since, bind, Except.bind]
  cases d.output source with
  | error issue => rfl
  | ok output =>
    cases t.pin index source with
    | error issue => rfl
    | ok pin =>
      dsimp only
      split <;> rfl

theorem readSources_since (t : Target) (index : Nat) (c : Cursor) :
    readSources t index c (d.since is) =
      ((readSources t index c d).1, (readSources t index c d).2.since is) := by
  fun_induction readSources t index c d with
  | case1 index c d issue hread =>
    rw [readSources_error (d := d.since is) hread]
    exact Draft.abandonLine_since is d c issue
  | case2 index c d source c' hread issue hattach =>
    rw [readSources_eq (d := d.since is) hread, attach_since, hattach]
    exact Draft.abandonLine_since is d c' issue
  | case3 index c d source c' hread d' hattach hcomma ih =>
    rw [readSources_eq (d := d.since is) hread, attach_since, hattach]
    simp only [Except.map, hcomma, if_true]
    exact ih
  | case4 index c d source c' hread d' hattach hcomma =>
    rw [readSources_eq (d := d.since is) hread, attach_since, hattach]
    simp only [Except.map, hcomma, if_false, Bool.false_eq_true]
    exact Draft.endLine_since is d' c'

theorem readConnectionLine_since (c : Cursor) :
    readConnectionLine c (d.since is) =
      ((readConnectionLine c d).1, (readConnectionLine c d).2.since is) := by
  simp only [readConnectionLine, readTarget_since]
  cases readTarget d c with
  | error issue => exact Draft.abandonLine_since is d c issue
  | ok x => exact readSources_since is d x.1 0 x.2

theorem monitor_since (r : Reference) : (d.since is).monitor r = (d.monitor r).since is := by
  simp only [Draft.monitor, output_since, Draft.circuit_since, Draft.probes_since,
    Draft.report_since]
  cases d.output r with
  | error issue => rfl
  | ok output =>
    dsimp only
    split <;> rfl

theorem readMonitorLine_since (c : Cursor) :
    readMonitorLine c (d.since is) =
      ((readMonitorLine c d).1, (readMonitorLine c d).2.since is) := by
  fun_induction readMonitorLine c d with
  | case1 c d issue hread =>
    rw [readMonitorLine_error (d := d.since is) hread]
    exact Draft.abandonLine_since is d c issue
  | case2 c d r c' hread hcomma ih =>
    rw [readMonitorLine_eq (d := d.since is) hread, monitor_since, if_pos hcomma]
    exact ih
  | case3 c d r c' hread hcomma =>
    rw [readMonitorLine_eq (d := d.since is) hread, monitor_since, if_neg hcomma]
    exact Draft.endLine_since is _ c'

/-! ## Sections and files -/

theorem readLine_since (s : Section) (c : Cursor) :
    readLine s c (d.since is) = ((readLine s c d).1, (readLine s c d).2.since is) := by
  cases s with
  | devices => exact readDeviceLine_since is d c
  | conns => exact readConnectionLine_since is d c
  | monit => exact readMonitorLine_since is d c

/-- What is read of a section does not depend on the issues. -/
theorem readLines_since (s : Section) (limit left : Nat) (c : Cursor) :
    readLines s limit left c (d.since is) = (readLines s limit left c d).since is := by
  induction left generalizing c d with
  | zero =>
    simp only [readLines, Draft.report_since]
    split <;> rfl
  | succ left ih =>
    simp only [readLines, readLine_since]
    split
    · rfl
    · exact ih _ _

/-- The progress, with issues that were found before its own. -/
def Progress.since (is : List Issue) (p : Progress) : Progress := { p with draft := p.draft.since is }

theorem enter_since (p : Progress) (reported : List Section) (limit : Nat) (s : Section)
    (heading : Token) (body : Cursor) :
    (p.since is).enter reported limit s heading body =
      (p.enter reported limit s heading body).since is := by
  simp only [Progress.enter, Progress.since, Draft.report_since]
  split
  · rw [Draft.foldl_since is p.draft (f := fun d m =>
      d.report ((Fault.missingSection m (some s)).on heading)) fun d m => d.report_since is _,
      readLines_since]
  · rfl

theorem readChunk_since (reported : List Section) (limit : Nat) (p : Progress) (chunk : Chunk) :
    (p.since is).readChunk reported limit chunk = (p.readChunk reported limit chunk).since is := by
  have hreport (p : Progress) (i : Issue) :
      { p.since is with draft := (p.since is).draft.report i } =
        Progress.since is { p with draft := p.draft.report i } := by
    simp only [Progress.since, Draft.report_since]
  simp only [readChunk_eq, hreport]
  split
  · split
    · exact enter_since is _ _ _ _ _ _
    · exact enter_since is _ _ _ _ _ _
  · rfl

/-- What is read of the pieces of a file does not depend on the issues. -/
theorem foldl_readChunk_since (reported : List Section) (limit : Nat) (pieces : List Chunk)
    (p : Progress) :
    pieces.foldl (Progress.readChunk reported limit) (p.since is) =
      (pieces.foldl (Progress.readChunk reported limit) p).since is := by
  induction pieces generalizing p with
  | nil => rfl
  | cons chunk pieces ih => rw [List.foldl_cons, readChunk_since, ih, List.foldl_cons]

end Breadboard.Definition
