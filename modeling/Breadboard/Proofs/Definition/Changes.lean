import Breadboard.Definition.File
import Breadboard.Proofs.Circuit.Wiring

/-!
# What readers do to a draft

Whatever the text, readers change a draft in four ways only: they report an issue, add a device,
connect an input, or put on a probe, and the last three only where the circuit and the probes allow
it. `Draft.Leads d d'` says that such changes lead from one draft to another one. `Draft.Builds d d'`
says besides that only those devices are connected and probed that the definition has declared.

* `builds_readLine`, `builds_readFile`: reading, be it of a line or of a file, is a run of changes to
  devices that have been declared.
* `Leads.preserves`: what every change preserves is preserved by reading.
* `Leads.issues_eq_nil`: no issue is taken back, so a draft without issues has never had any.
* `Leads.ids_eq`: the devices that are new are the ones that the definition has declared.
-/
namespace Breadboard.Definition

namespace Draft

/-- A change that a reader makes to a draft. -/
inductive Change (d : Draft) : Draft → Prop where
  | report (i : Issue) : Change d (d.report i)
  | device {id : NameId} {kind : DeviceKind} {parameter : Option UInt32} {circuit : Circuit} :
      d.circuit.addDevice id kind parameter = .ok circuit →
        Change d { d with circuit, declared := d.declared ++ [id] }
  | wire {source : Terminal} {target : NameId} {pin : InputPin} {circuit : Circuit} :
      d.circuit.connect source target pin = .ok circuit → Change d { d with circuit }
  | probe {t : Terminal} {probes : Probes} :
      d.probes.add d.circuit t 0 = .ok probes → Change d { d with probes }

/-- Some changes lead from the first draft to the second one. -/
def Leads : Draft → Draft → Prop := Relation.ReflTransGen Change

variable {d d' : Draft}

namespace Leads

theorem refl (d : Draft) : d.Leads d := Relation.ReflTransGen.refl

theorem trans {d'' : Draft} (h : d.Leads d') (h' : d'.Leads d'') : d.Leads d'' :=
  Relation.ReflTransGen.trans h h'

/-- What every change preserves is preserved by all of them together. -/
theorem preserves {P : Draft → Prop} (hP : ∀ {d d'}, Change d d' → P d → P d') (h : d.Leads d')
    (hd : P d) : P d' := by
  induction h with
  | refl => exact hd
  | tail _ hchange ih => exact hP hchange ih

theorem issues_isPrefix (h : d.Leads d') : d.issues <+: d'.issues := by
  refine h.preserves (P := fun e => d.issues <+: e.issues) (fun hchange he => ?_) List.prefix_rfl
  cases hchange with
  | report i => exact he.trans (List.prefix_append _ _)
  | device | wire | probe => exact he

theorem issues_eq_nil (h : d.Leads d') (hnone : d'.issues = []) : d.issues = [] := by
  have hprefix := h.issues_isPrefix
  rw [hnone] at hprefix
  exact List.prefix_nil.1 hprefix

/-- The devices that are new are the ones that the definition has declared. -/
theorem ids_eq (h : d.Leads d') :
    ∃ new, d'.circuit.ids = d.circuit.ids ++ new ∧ d'.declared = d.declared ++ new := by
  refine h.preserves (P := fun e => ∃ new, e.circuit.ids = d.circuit.ids ++ new ∧
    e.declared = d.declared ++ new) (fun {e e'} hchange he => ?_) ⟨[], by simp, by simp⟩
  obtain ⟨new, hids, hdeclared⟩ := he
  cases hchange with
  | report | probe => exact ⟨new, hids, hdeclared⟩
  | @device id _ _ _ hadd =>
    refine ⟨new ++ [id], ?_, ?_⟩
    · show Circuit.ids _ = _
      rw [(Circuit.ids_addDevice hadd).1, hids, List.append_assoc]
    · show e.declared ++ [id] = _
      rw [hdeclared, List.append_assoc]
  | wire hconnect =>
    refine ⟨new, ?_, hdeclared⟩
    show Circuit.ids _ = _
    rw [Circuit.eq_modify_of_connect hconnect, Circuit.ids_modify, hids]

end Leads

theorem leads_report (d : Draft) (i : Issue) : d.Leads (d.report i) := .single (.report i)

theorem report_issues_ne_nil (d : Draft) (i : Issue) : (d.report i).issues ≠ [] := by
  simp [report]

theorem leads_monitor (d : Draft) (r : Reference) : d.Leads (d.monitor r) := by
  unfold monitor
  split
  · exact d.leads_report _
  split
  · rename_i hadd
    exact .single (.probe hadd)
  all_goals exact d.leads_report _

/-- A source is connected, or it is reported of it that its input is taken. -/
theorem attach_cases {t : Target} {index : Nat} {source : Reference}
    (h : d.attach t index source = .ok d') :
    (∃ output pin circuit, d.output source = .ok output ∧
      d.circuit.connect output t.reference.device pin = .ok circuit ∧
      d' = { d with circuit }) ∨ ∃ f : Fault, d' = d.report (f.on source.name) := by
  simp only [attach, bind, Except.bind] at h
  split at h
  · cases h
  rename_i output houtput
  split at h
  · cases h
  split at h
  · rename_i circuit hconnect
    cases h
    exact .inl ⟨output, _, circuit, houtput, hconnect, rfl⟩
  · cases h
    exact .inr ⟨_, rfl⟩
  · cases h

theorem leads_attach {t : Target} {index : Nat} {source : Reference}
    (h : d.attach t index source = .ok d') : d.Leads d' := by
  obtain ⟨output, pin, circuit, -, hconnect, rfl⟩ | ⟨f, rfl⟩ := attach_cases h
  · exact .single (.wire hconnect)
  · exact d.leads_report _

/-! ## Changes to declared devices -/

/-- A change that a reader makes to the devices that the definition has declared. -/
inductive OwnChange (d : Draft) : Draft → Prop where
  | report (i : Issue) : OwnChange d (d.report i)
  | device {id : NameId} {kind : DeviceKind} {parameter : Option UInt32} {circuit : Circuit} :
      d.circuit.addDevice id kind parameter = .ok circuit →
        OwnChange d { d with circuit, declared := d.declared ++ [id] }
  | wire {source : Terminal} {target : NameId} {pin : InputPin} {circuit : Circuit} :
      source.device ∈ d.declared → target ∈ d.declared →
        d.circuit.connect source target pin = .ok circuit → OwnChange d { d with circuit }
  | probe {t : Terminal} {probes : Probes} :
      t.device ∈ d.declared → d.probes.add d.circuit t 0 = .ok probes →
        OwnChange d { d with probes }

theorem OwnChange.change (h : OwnChange d d') : Change d d' := by
  cases h with
  | report i => exact .report i
  | device hadd => exact .device hadd
  | wire _ _ hconnect => exact .wire hconnect
  | probe _ hadd => exact .probe hadd

/-- Some changes to declared devices lead from the first draft to the second one. -/
def Builds : Draft → Draft → Prop := Relation.ReflTransGen OwnChange

namespace Builds

theorem refl (d : Draft) : d.Builds d := Relation.ReflTransGen.refl

theorem trans {d'' : Draft} (h : d.Builds d') (h' : d'.Builds d'') : d.Builds d'' :=
  Relation.ReflTransGen.trans h h'

theorem leads (h : d.Builds d') : d.Leads d' :=
  Relation.ReflTransGen.mono (fun _ _ => OwnChange.change) _ _ h

theorem preserves {P : Draft → Prop} (hP : ∀ {d d'}, OwnChange d d' → P d → P d')
    (h : d.Builds d') (hd : P d) : P d' := by
  induction h with
  | refl => exact hd
  | tail _ hchange ih => exact hP hchange ih

theorem mem_declared (h : d.Builds d') {id : NameId} (hid : id ∈ d.declared) :
    id ∈ d'.declared := by
  obtain ⟨new, -, hdeclared⟩ := h.leads.ids_eq
  rw [hdeclared]
  exact List.mem_append_left _ hid

end Builds

theorem builds_report (d : Draft) (i : Issue) : d.Builds (d.report i) := .single (.report i)

theorem builds_foldl {α : Type} {f : Draft → α → Draft} (hf : ∀ (d : Draft) a, d.Builds (f d a))
    (as : List α) (d : Draft) : d.Builds (as.foldl f d) := by
  induction as generalizing d with
  | nil => exact .refl d
  | cons a as ih => exact (hf d a).trans (ih _)

theorem builds_endLine (d : Draft) (c : Cursor) : d.Builds (d.endLine c).2 := by
  unfold endLine
  split
  · exact .refl d
  split
  · exact d.builds_report _
  · exact d.builds_report _

theorem builds_abandonLine (d : Draft) (c : Cursor) (i : Issue) :
    d.Builds (d.abandonLine c i).2 :=
  d.builds_report i

/-! ## References -/

theorem device_of_output {r : Reference} {t : Terminal} (h : d.output r = .ok t) :
    t.device = r.device := by
  simp only [output, bind, Except.bind] at h
  split at h
  · cases h
  split at h
  · cases h
  · cases h
    rfl
  · split at h <;> cases h
    rfl
  · cases h

end Draft

theorem device_of_readPin {device : NameId} {name : Token} {c c' : Cursor} {r : Reference}
    (h : readPin device name c = .ok (r, c')) : r.device = device := by
  simp only [readPin] at h
  split at h
  · split at h <;> cases h
    rfl
  · cases h
  · cases h
    rfl

theorem mem_declared_of_readReference {declared : List NameId} {c c' : Cursor} {r : Reference}
    (h : readReference declared c = .ok (r, c')) : r.device ∈ declared := by
  unfold readReference at h
  split at h
  · cases h
  split at h
  · split at h
    · rename_i hdeclared
      rw [device_of_readPin h]
      exact List.contains_iff_mem.1 hdeclared
    · cases h
  · cases h
  · cases h

theorem mem_declared_of_readTarget {d : Draft} {c c' : Cursor} {t : Target}
    (h : readTarget d c = .ok (t, c')) : t.reference.device ∈ d.declared := by
  simp only [readTarget, bind, Except.bind] at h
  split at h
  · cases h
  rename_i hread
  split at h
  · cases h
  split at h
  · cases h
  split at h <;> cases h
  exact mem_declared_of_readReference hread

/-! ## Lines -/

namespace Draft

variable {d d' : Draft}

theorem builds_takeName {names read : List (NameId × Token)} {t : Token}
    (h : d.takeName names t = .ok (read, d')) : d.Builds d' := by
  unfold takeName at h
  split at h
  · split at h
    · cases h
      exact d.builds_report _
    · cases h
      exact .refl d
  · cases h
    exact d.builds_report _
  · cases h

theorem builds_declare (d : Draft) (kind : DeviceKind) (parameter : Option UInt32)
    (name : NameId × Token) : d.Builds (d.declare kind parameter name) := by
  simp only [declare]
  split
  · rename_i hadd
    exact .single (.device hadd)
  all_goals exact d.builds_report _

theorem builds_attach {t : Target} {index : Nat} {source : Reference}
    (ht : t.reference.device ∈ d.declared) (hsource : source.device ∈ d.declared)
    (h : d.attach t index source = .ok d') : d.Builds d' := by
  obtain ⟨output, pin, circuit, houtput, hconnect, rfl⟩ | ⟨f, rfl⟩ := attach_cases h
  · exact .single (.wire (device_of_output houtput ▸ hsource) ht hconnect)
  · exact d.builds_report _

theorem builds_monitor {r : Reference} (hr : r.device ∈ d.declared) : d.Builds (d.monitor r) := by
  unfold monitor
  split
  · exact d.builds_report _
  rename_i houtput
  split
  · rename_i hadd
    exact .single (.probe (device_of_output houtput ▸ hr) hadd)
  all_goals exact d.builds_report _

end Draft

theorem builds_readNames (names : List (NameId × Token)) (c : Cursor) (d : Draft) :
    d.Builds (readNames names c d).1 := by
  fun_induction readNames names c d with
  | case1 => exact .refl _
  | case2 => exact .refl _
  | case3 _ _ _ _ _ _ _ _ htake _ ih => exact (Draft.builds_takeName htake).trans ih
  | case4 _ _ _ _ _ _ _ _ htake => exact Draft.builds_takeName htake

theorem builds_readDeviceLine (c : Cursor) (d : Draft) : d.Builds (readDeviceLine c d).2 := by
  have hnames := builds_readNames [] c d
  unfold readDeviceLine
  split
  · rename_i hread
    rw [hread] at hnames
    exact hnames.trans (Draft.builds_abandonLine _ _ _)
  · rename_i hread
    rw [hread] at hnames
    split
    · exact hnames.trans (Draft.builds_abandonLine _ _ _)
    · exact hnames.trans
        ((Draft.builds_foldl (fun d => d.builds_declare _ _) _ _).trans
          (Draft.builds_endLine _ _))

theorem leads_readSources (t : Target) (index : Nat) (c : Cursor) (d : Draft) :
    d.Leads (readSources t index c d).2 := by
  fun_induction readSources t index c d with
  | case1 => exact (Draft.builds_abandonLine _ _ _).leads
  | case2 => exact (Draft.builds_abandonLine _ _ _).leads
  | case3 _ _ _ _ _ _ _ hattach _ ih => exact (Draft.leads_attach hattach).trans ih
  | case4 _ _ _ _ _ _ _ hattach =>
    exact (Draft.leads_attach hattach).trans (Draft.builds_endLine _ _).leads

theorem builds_readSources (t : Target) (index : Nat) (c : Cursor) (d : Draft)
    (ht : t.reference.device ∈ d.declared) : d.Builds (readSources t index c d).2 := by
  fun_induction readSources t index c d with
  | case1 => exact Draft.builds_abandonLine _ _ _
  | case2 => exact Draft.builds_abandonLine _ _ _
  | case3 _ _ _ _ _ hread _ hattach _ ih =>
    have hbuilds := Draft.builds_attach ht (mem_declared_of_readReference hread) hattach
    exact hbuilds.trans (ih (hbuilds.mem_declared ht))
  | case4 _ _ _ _ _ hread _ hattach =>
    exact (Draft.builds_attach ht (mem_declared_of_readReference hread) hattach).trans
      (Draft.builds_endLine _ _)

theorem builds_readConnectionLine (c : Cursor) (d : Draft) :
    d.Builds (readConnectionLine c d).2 := by
  unfold readConnectionLine
  split
  · exact Draft.builds_abandonLine _ _ _
  · rename_i hread
    exact builds_readSources _ _ _ _ (mem_declared_of_readTarget hread)

theorem builds_readMonitorLine (c : Cursor) (d : Draft) : d.Builds (readMonitorLine c d).2 := by
  fun_induction readMonitorLine c d with
  | case1 => exact Draft.builds_abandonLine _ _ _
  | case2 _ _ _ _ hread _ ih =>
    exact (Draft.builds_monitor (mem_declared_of_readReference hread)).trans ih
  | case3 _ _ _ _ hread =>
    exact (Draft.builds_monitor (mem_declared_of_readReference hread)).trans
      (Draft.builds_endLine _ _)

theorem builds_readLine (s : Section) (c : Cursor) (d : Draft) :
    d.Builds (readLine s c d).2 := by
  cases s with
  | devices => exact builds_readDeviceLine c d
  | conns => exact builds_readConnectionLine c d
  | monit => exact builds_readMonitorLine c d

/-! ## Sections -/

theorem builds_readLines (s : Section) (limit left : Nat) (c : Cursor) (d : Draft) :
    d.Builds (readLines s limit left c d) := by
  induction left generalizing c d with
  | zero =>
    simp only [readLines]
    split
    · exact .refl d
    · exact d.builds_report _
  | succ left ih =>
    simp only [readLines]
    split
    · exact .refl d
    · exact (builds_readLine s c d).trans (ih _ _)

theorem builds_enter (p : Progress) (reported : List Section) (limit : Nat) (s : Section)
    (heading : Token) (body : Cursor) :
    p.draft.Builds (p.enter reported limit s heading body).draft := by
  simp only [Progress.enter]
  split
  · exact (Draft.builds_foldl (fun d m => d.builds_report _) _ _).trans
      (builds_readLines _ _ _ _ _)
  · exact p.draft.builds_report _

theorem builds_readChunk (reported : List Section) (limit : Nat) (p : Progress) (chunk : Chunk) :
    p.draft.Builds (p.readChunk reported limit chunk).draft := by
  simp only [Progress.readChunk]
  split
  · split
    · exact builds_enter _ _ _ _ _ _
    · refine .trans ?_ (builds_enter _ _ _ _ _ _)
      exact p.draft.builds_report _
  · exact p.draft.builds_report _

theorem builds_foldl_readChunk (reported : List Section) (limit : Nat) (pieces : List Chunk)
    (p : Progress) :
    p.draft.Builds (pieces.foldl (Progress.readChunk reported limit) p).draft := by
  induction pieces generalizing p with
  | nil => exact .refl p.draft
  | cons chunk pieces ih => exact (builds_readChunk reported limit p chunk).trans (ih _)

/-- Reading a file is a run of changes to devices that it has declared. -/
theorem builds_readFile (limit : Nat) (tokens : List Token) (finish : Token) (d : Draft) :
    d.Builds (readFile limit tokens finish d) := by
  simp only [readFile]
  refine .trans ?_ (Draft.builds_foldl (fun d m => d.builds_report _) _ _)
  refine .trans ?_ (builds_foldl_readChunk _ _ _ _)
  split
  · exact .refl d
  · exact d.builds_report _

end Breadboard.Definition
