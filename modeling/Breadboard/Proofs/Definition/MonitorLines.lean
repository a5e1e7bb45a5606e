import Breadboard.Proofs.Definition.DeviceLines
import Breadboard.Proofs.Definition.References

/-!
# Monitor lines

The reader of monitor lines and the grammar agree. Read without issues, a line is one that the
grammar derives, with outputs for signals none of which has a probe, and the draft has its probes
afterwards; and each such line is read that way.

* `readMonitorLine_sound`, `readMonitorLine_complete`: the two directions.
-/
namespace Breadboard.Definition

variable {names : NameTable} {passLimit : Nat} {c c' e : Cursor} {d d' : Draft} {k : Layout}
  {p : Part} {s : Signal} {r : Reference}

/-! ## Signals -/

/-- A signal that is monitored without an issue is a signal more. -/
theorem monitor_sound (hk : k.Sound names) (hp : p ∈ k.parts) (hname : p.name = s.device)
    (hr : r.Denotes names s) (h : ((k.draft names passLimit).monitor r).issues = []) :
    s.IsOutput k.parts ∧ s ∉ k.signals ∧
      (k.draft names passLimit).monitor r = (k.addSignal s).draft names passLimit := by
  unfold Draft.monitor at h ⊢
  cases houtput : (k.draft names passLimit).output r with
  | error issue =>
    rw [houtput] at h
    exact absurd h (Draft.report_issues_ne_nil _ _)
  | ok output =>
    rw [houtput] at h
    obtain ⟨hisOutput, rfl⟩ := (output_draft_iff passLimit hk hp hname hr).1 houtput
    have hadd := Layout.add_probes passLimit hk hisOutput
    by_cases hmem : s ∈ k.signals
    · rw [if_pos hmem] at hadd
      simp only [Layout.draft, hadd] at h
      exact absurd h (Draft.report_issues_ne_nil _ _)
    · rw [if_neg hmem] at hadd
      refine ⟨hisOutput, hmem, ?_⟩
      simp only [Layout.draft, hadd]
      rfl

theorem monitor_complete (hk : k.Sound names) (hp : p ∈ k.parts) (hname : p.name = s.device)
    (hr : r.Denotes names s) (hs : s.IsOutput k.parts) (hnew : s ∉ k.signals) :
    (k.draft names passLimit).monitor r = (k.addSignal s).draft names passLimit := by
  have houtput := (output_draft_iff passLimit hk hp hname hr).2 ⟨hs, rfl⟩
  have hadd := Layout.add_probes passLimit hk hs
  rw [if_neg hnew] at hadd
  unfold Draft.monitor
  rw [houtput]
  simp only [Layout.draft, hadd]
  rfl

theorem readMonitorLine_eq (h : readReference d.declared c = .ok (r, c')) :
    readMonitorLine c d =
      if c'.isAt .comma then readMonitorLine c'.advance (d.monitor r)
      else (d.monitor r).endLine c' := by
  rw [readMonitorLine]
  split
  · rename_i hread
    rw [h] at hread
    cases hread
  · rename_i hread
    rw [h] at hread
    obtain ⟨rfl, rfl⟩ := Prod.mk.inj (Except.ok.inj hread)
    rfl

theorem readSignals_sound (hp : c.Proper names) (hk : k.Sound names)
    (hd : d = k.draft names passLimit) (h : readMonitorLine c d = (c', d'))
    (hissues : d'.issues = []) :
    ∃ signals : List Signal, signals ≠ [] ∧
      c.Reads (separated Signal.symbols signals ++ [.mark .semicolon]) c' ∧
      (∀ s ∈ signals, s.IsOutput k.parts) ∧ (k.signals ++ signals).Nodup ∧
      d' = (k.addSignals signals).draft names passLimit := by
  fun_induction readMonitorLine c d generalizing k with
  | case1 =>
    obtain ⟨-, rfl⟩ := Prod.mk.inj h
    exact absurd hissues (Draft.report_issues_ne_nil _ _)
  | case2 c d r c₁ hread hcomma ih =>
    subst hd
    obtain ⟨s, p, hpart, hname, hdenotes, hreads⟩ := readReference_draft_sound hp hk hread
    have hbuilds := builds_readMonitorLine c₁.advance ((k.draft names passLimit).monitor r)
    rw [h] at hbuilds
    obtain ⟨houtput, hnew, hmonitor⟩ :=
      monitor_sound hk hpart hname hdenotes (hbuilds.leads.issues_eq_nil hissues)
    have hp₁ := hp.of_reads hreads
    obtain ⟨signals, hne, hsignals, houtputs, hnodup, rfl⟩ :=
      ih hp₁.advance (hk.addSignal houtput hnew) hmonitor h
    refine ⟨s :: signals, List.cons_ne_nil _ _, ?_, ?_, ?_, ?_⟩
    · rw [separated_cons hne, List.append_assoc]
      exact hreads.trans (.cons hp₁ (Cursor.isAt_iff.1 hcomma) (by decide) hsignals)
    · exact List.forall_mem_cons.2 ⟨houtput, houtputs⟩
    · simpa [Layout.addSignal] using hnodup
    · rw [Layout.addSignals_addSignal]
  | case3 c d r c₁ hread hcomma =>
    subst hd
    obtain ⟨s, p, hpart, hname, hdenotes, hreads⟩ := readReference_draft_sound hp hk hread
    obtain ⟨hend, rfl⟩ := Draft.endLine_sound (hp.of_reads hreads) h hissues
    obtain ⟨houtput, hnew, hmonitor⟩ := monitor_sound hk hpart hname hdenotes hissues
    exact ⟨[s], List.cons_ne_nil _ _, hreads.trans hend, by simpa using houtput,
      (hk.addSignal houtput hnew).nodup_signals, hmonitor⟩

/-- Signals with a comma behind each of them get probes, and reading goes on with the next one. -/
theorem readSignals_init (passLimit : Nat) {init : List Signal} (hp : c.Proper names)
    (hk : k.Sound names) (hr : c.Reads (init.flatMap fun s => s.symbols ++ [.mark .comma]) e)
    (houtputs : ∀ s ∈ init, s.IsOutput k.parts) (hnodup : (k.signals ++ init).Nodup) :
    (k.addSignals init).Sound names ∧
      readMonitorLine c (k.draft names passLimit) =
        readMonitorLine e ((k.addSignals init).draft names passLimit) := by
  induction init generalizing c k with
  | nil =>
    obtain rfl := hr.eq
    have hnone : k.addSignals [] = k := by simp [Layout.addSignals]
    rw [hnone]
    exact ⟨hk, rfl⟩
  | cons s init ih =>
    obtain ⟨houtput, houtputs⟩ := List.forall_mem_cons.1 houtputs
    have hnew : s ∉ k.signals := fun hmem =>
      (List.nodup_append'.1 hnodup).2.2 hmem List.mem_cons_self
    obtain ⟨p, hpart, hname, -⟩ := houtput.output_mem
    rw [List.flatMap_cons, List.append_assoc] at hr
    obtain ⟨c₁, hsignal, hr₁⟩ := hr.split
    obtain ⟨r, hread, hdenotes⟩ := readReference_draft_complete passLimit hp hsignal
      (s.endsAt_of_mark (by decide) hr₁.current) hpart hname
    have hcomma : c₁.isAt .comma = true := Cursor.isAt_iff.2 hr₁.current
    obtain ⟨hsound, hrest⟩ := ih (hp.of_reads hsignal).advance (hk.addSignal houtput hnew)
      hr₁.advance houtputs (by simpa [Layout.addSignal] using hnodup)
    rw [Layout.addSignals_addSignal] at hsound hrest
    refine ⟨hsound, ?_⟩
    rw [readMonitorLine_eq hread, monitor_complete hk hpart hname hdenotes houtput hnew]
    simp only [hcomma, if_true]
    exact hrest

theorem readMonitorLine_error {issue : Issue} (h : readReference d.declared c = .error issue) :
    readMonitorLine c d = d.abandonLine c issue := by
  rw [readMonitorLine]
  split
  · rename_i hread
    rw [h] at hread
    cases hread
    rfl
  · rename_i hread
    rw [h] at hread
    cases hread

/-! ## Lines -/

def MonitorDecl.content (decl : MonitorDecl) : List Symbol :=
  separated Signal.symbols decl.signals

/-- The line may come after lines that declare a given layout. -/
structure MonitorDecl.Valid (k : Layout) (decl : MonitorDecl) : Prop where
  signals : ∀ s ∈ decl.signals, s.IsOutput k.parts
  nodup : (k.signals ++ decl.signals).Nodup

theorem readMonitorLine_sound (hp : c.Proper names) (hk : k.Sound names)
    (h : readMonitorLine c (k.draft names passLimit) = (c', d')) (hissues : d'.issues = []) :
    ∃ decl : MonitorDecl, decl.Valid k ∧ c.Reads decl.symbols c' ∧
      d' = (k.addSignals decl.signals).draft names passLimit := by
  obtain ⟨signals, hne, hreads, houtputs, hnodup, hd'⟩ := readSignals_sound hp hk rfl h hissues
  exact ⟨⟨signals, hne⟩, ⟨houtputs, hnodup⟩, hreads, hd'⟩

/-- A line that may come next is read up to its last signal. -/
theorem readMonitorLine_last (passLimit : Nat) {decl : MonitorDecl} {init : List Signal}
    {last : Signal} (hp : c.Proper names) (hk : k.Sound names) (hr : c.Reads decl.content e)
    (hvalid : decl.Valid k) (hsignals : decl.signals = init ++ [last]) :
    ∃ c₁ : Cursor, c₁.Proper names ∧ c₁.Reads last.symbols e ∧
      (k.addSignals init).Sound names ∧
      readMonitorLine c (k.draft names passLimit) =
        readMonitorLine c₁ ((k.addSignals init).draft names passLimit) := by
  obtain ⟨houtputs, hnodup⟩ := hvalid
  rw [hsignals] at houtputs
  rw [hsignals, ← List.append_assoc] at hnodup
  rw [MonitorDecl.content, hsignals, separated_concat] at hr
  obtain ⟨c₁, hinit, hlast⟩ := hr.split
  obtain ⟨hsound, hread⟩ := readSignals_init passLimit hp hk hinit
    (fun s hs => houtputs s (List.mem_append_left _ hs)) (List.nodup_append'.1 hnodup).1
  exact ⟨c₁, hp.of_reads hinit, hlast, hsound, hread⟩

theorem readMonitorLine_complete (passLimit : Nat) {decl : MonitorDecl} (hp : c.Proper names)
    (hk : k.Sound names) (hr : c.Reads decl.content e)
    (hend : ∀ s ∈ decl.signals.getLast?, s.EndsAt e) (hcomma : e.isAt .comma = false)
    (hvalid : decl.Valid k) :
    readMonitorLine c (k.draft names passLimit) =
      ((k.addSignals decl.signals).draft names passLimit).endLine e := by
  obtain ⟨init, last, hsignals⟩ :=
    (List.eq_nil_or_concat' decl.signals).resolve_left decl.signals_ne_nil
  obtain ⟨c₁, hp₁, hlast, hsound, hread⟩ :=
    readMonitorLine_last passLimit hp hk hr hvalid hsignals
  have houtput : last.IsOutput k.parts := hvalid.signals last (by simp [hsignals])
  have hnew : last ∉ (k.addSignals init).signals := by
    have hnodup := hvalid.nodup
    rw [hsignals, ← List.append_assoc, List.nodup_append'] at hnodup
    exact fun hmem => hnodup.2.2 hmem (List.mem_singleton_self last)
  obtain ⟨p, hpart, hname, -⟩ := houtput.output_mem
  obtain ⟨r, hreference, hdenotes⟩ := readReference_draft_complete (k := k.addSignals init) passLimit
    hp₁ hlast (hend last (by simp [hsignals])) hpart hname
  rw [hread, readMonitorLine_eq hreference,
    monitor_complete hsound hpart hname hdenotes houtput hnew, hsignals]
  simp only [hcomma, Bool.false_eq_true, if_false, Layout.addSignal, Layout.addSignals,
    List.append_assoc]

/-- A line that ends in a bare name, with another name behind it, loses its last signal. -/
theorem readMonitorLine_runOn (passLimit : Nat) {decl : MonitorDecl} {last : Signal} {id : NameId}
    (hp : c.Proper names) (hk : k.Sound names) (hr : c.Reads decl.content e)
    (hlast : decl.signals.getLast? = some last) (hpin : last.pin = none)
    (hnext : e.current.kind = .name id) (hvalid : decl.Valid k) :
    ∃ c₁ : Cursor, c₁.Reads last.symbols e ∧
      (k.addSignals decl.signals.dropLast).Sound names ∧
      readMonitorLine c (k.draft names passLimit) =
        ((k.addSignals decl.signals.dropLast).draft names passLimit).abandonLine c₁
          ((Fault.missingDot last.device e.current.text).on e.current) := by
  obtain ⟨init, hsignals⟩ := List.getLast?_eq_some_iff.1 hlast
  obtain ⟨c₁, hp₁, hlast, hsound, hread⟩ :=
    readMonitorLine_last passLimit hp hk hr hvalid hsignals
  obtain ⟨q, hq, hqname, -⟩ := hvalid.signals last (by simp [hsignals])
  rw [hsignals, List.dropLast_concat]
  refine ⟨c₁, hlast, hsound, ?_⟩
  rw [hread, readMonitorLine_error]
  exact readReference_runOn hp₁ hlast hpin hnext (hqname ▸ List.mem_map_of_mem hq)

end Breadboard.Definition
