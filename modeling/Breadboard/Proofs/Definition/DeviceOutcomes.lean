import Breadboard.Proofs.Definition.LineStarts

/-!
# What becomes of a device line

A device line that is right by the grammar loses no more than what is wrong with it. The names that
are taken are reported one by one, and left out. Of the free ones, devices are made if the parameter
suits the kind; if it does not, each of them is reported and remains free.

* `foldl_declare_of_ok`, `foldl_declare_of_error`: what is made of the free names.
* `readDeviceLine_of_reads`: what is made of a line.
* `readDeviceLine_of_comesOnto`: the same for every device line of a text, wherever it stands.
-/
namespace Breadboard

theorem Logic.kind_of_ofKind {kind : DeviceKind} {parameter : Option UInt32} {l : Logic}
    (h : Logic.ofKind kind parameter = .ok l) : l.kind = kind := by
  unfold ofKind at h
  split at h
  · cases h
    rfl
  · split at h <;> cases h
    rfl
  · split at h <;> cases h
    rfl
  · cases h
    rfl
  · split at h
    · cases h
      rfl
    · split at h <;> cases h
      rfl
  · cases h
  · split at h <;> cases h
    rfl
  · cases h
    rfl

namespace Definition

variable {names : NameTable} {kind : DeviceKind} {value : Option UInt32} {c e : Cursor} {d : Draft}
  {decl : DeviceDecl} {ts : List Token} {t : Token} {l : Logic} {error : DeviceError}

/-! ## Devices of one kind -/

/-- Reports that no device of the kind can be made with the parameter, or without one. -/
def refusedIssue (kind : DeviceKind) (value : Option UInt32) (t : Token) : Issue :=
  match value with
  | some value => (Fault.invalidParameter kind value t.text).on t
  | none => (Fault.missingParameter kind t.text).on t

/-- The draft with more devices, one for each name, which are all the same part. -/
def Draft.addDevices (names : NameTable) (l : Logic) (ts : List Token) (d : Draft) : Draft :=
  { d with
    circuit :=
      { d.circuit with devices := d.circuit.devices ++ ts.map fun t => ⟨names.idOf t.text, l⟩ }
    declared := d.declared ++ ts.map fun t => names.idOf t.text }

theorem Draft.ids_addDevices (names : NameTable) (l : Logic) (ts : List Token) (d : Draft) :
    (d.addDevices names l ts).circuit.ids = d.circuit.ids ++ ts.map fun t => names.idOf t.text := by
  simp [addDevices, Circuit.ids, Function.comp_def]

theorem declare_of_ok (hl : Logic.ofKind kind value = .ok l)
    (hnew : names.idOf t.text ∉ d.circuit.ids) :
    d.declare kind value (tagged names t) = d.addDevices names l [t] := by
  have hadd : d.circuit.addDevice (names.idOf t.text) kind value = .ok _ :=
    Circuit.addDevice_eq_ok_iff.2 ⟨hnew, l, hl, rfl⟩
  simp only [Draft.declare, tagged, hadd]
  rfl

theorem declare_of_error (hl : Logic.ofKind kind value = .error error)
    (hnew : names.idOf t.text ∉ d.circuit.ids) :
    d.declare kind value (tagged names t) = d.report (refusedIssue kind value t) := by
  have hcontains : d.circuit.contains (names.idOf t.text) = false := by
    rw [← Bool.not_eq_true, Circuit.contains_iff_mem_ids]
    exact hnew
  have hadd : d.circuit.addDevice (names.idOf t.text) kind value = .error error := by
    simp [Circuit.addDevice, hcontains, hl]
  simp only [Draft.declare, tagged, hadd]
  obtain ⟨value, rfl, rfl⟩ | ⟨rfl, rfl⟩ := Logic.ofKind_error hl <;> rfl

/-- If the kind takes the parameter, the names become devices. -/
theorem foldl_declare_of_ok (hl : Logic.ofKind kind value = .ok l)
    (hnew : ∀ t ∈ ts, names.idOf t.text ∉ d.circuit.ids)
    (hnodup : (ts.map fun t => names.idOf t.text).Nodup) :
    (ts.map (tagged names)).foldl (·.declare kind value ·) d = d.addDevices names l ts := by
  induction ts generalizing d with
  | nil => simp [Draft.addDevices]
  | cons t ts ih =>
    obtain ⟨ht, hnew⟩ := List.forall_mem_cons.1 hnew
    rw [List.map_cons, List.nodup_cons] at hnodup
    rw [List.map_cons, List.foldl_cons, declare_of_ok hl ht, ih (fun u hu => ?_) hnodup.2]
    · simp [Draft.addDevices]
    · rw [Draft.ids_addDevices, List.map_singleton, List.mem_append, List.mem_singleton, not_or]
      exact ⟨hnew u hu, fun he => hnodup.1 (List.mem_map.2 ⟨u, hu, he⟩)⟩

/-- If it does not, each name is reported, and that is all. -/
theorem foldl_declare_of_error (hl : Logic.ofKind kind value = .error error)
    (hnew : ∀ t ∈ ts, names.idOf t.text ∉ d.circuit.ids) :
    (ts.map (tagged names)).foldl (·.declare kind value ·) d =
      d.reportAll (ts.map (refusedIssue kind value)) := by
  induction ts generalizing d with
  | nil => simp [Draft.reportAll]
  | cons t ts ih =>
    obtain ⟨ht, hnew⟩ := List.forall_mem_cons.1 hnew
    rw [List.map_cons, List.foldl_cons, declare_of_error hl ht,
      ih (d := d.report (refusedIssue kind value t)) hnew]
    exact d.reportAll_reportAll [refusedIssue kind value t] _

/-! ## Lines -/

/-- A device line that is right by the grammar is read up to its end. The names that are taken are
reported; the free ones become devices, or are reported each if there can be no such device. -/
theorem readDeviceLine_of_reads (hp : c.Proper names) (hids : d.circuit.ids = d.declared)
    (hreads : c.Reads decl.symbols e) (hfits : ParameterFits decl.parameter) :
    ∃ line : List Token, c.ahead = line ++ e.ahead ∧
      let ts := line.filter Token.isName
      let found := d.reportAll ((takenNames names d.circuit.ids ts).map takenIssue)
      let free := freeNames names d.circuit.ids ts
      let value := parameterValue decl.parameter
      ts.map (·.text) = decl.names ∧
      (∀ l, Logic.ofKind decl.kind value = .ok l →
        readDeviceLine c d = (e, found.addDevices names l free)) ∧
      ∀ error, Logic.ofKind decl.kind value = .error error →
        readDeviceLine c d = (e, found.reportAll (free.map (refusedIssue decl.kind value))) := by
  have hwhole : c.Reads (decl.content ++ [.mark .semicolon]) e := hreads
  obtain ⟨e₁, hcontent, hend⟩ := hwhole.split
  have hbracket : e₁.isAt .openBracket = false := by
    rw [← Bool.not_eq_true, Cursor.isAt_iff, hend.current]
    decide
  obtain ⟨line, hline, htext, hread⟩ :=
    readDeviceLine_of_content (d := d) hp hcontent hbracket hfits
  obtain ⟨semicolon, rest, hahead, hmark, -⟩ := hend.cons_ahead
  have hnone : semicolon.isName = false := by
    rw [Token.isName, Token.symbol?_eq_mark_iff.1 hmark]
  have hfilter : (line ++ [semicolon]).filter Token.isName = line.filter Token.isName := by
    simp [hnone]
  obtain ⟨hfree, htexts⟩ :=
    freeNames_spec names d.circuit.ids [] (line.filter Token.isName)
  have hinterned : ∀ word ∈ (freeNames names d.circuit.ids (line.filter Token.isName)).map (·.text),
      word ∈ names.names := by
    intro word hword
    obtain ⟨t, ht, rfl⟩ := List.mem_map.1 hword
    exact decl.mem_names hp hcontent (htext ▸ List.mem_map_of_mem (hfree t ht).1)
  have hnodup := htexts.map_on fun a ha b hb he =>
    NameTable.idOf_inj (hinterned a ha) (hinterned b hb) he
  rw [List.map_map] at hnodup
  obtain rfl : e = e₁.advance := hend.advance.eq
  refine ⟨line ++ [semicolon], ?_, ?_⟩
  · rw [hline, hahead, Cursor.advance_cons hahead, List.append_assoc]
    rfl
  · rw [hfilter]
    rw [← hids] at hread
    refine ⟨htext, fun l hl => ?_, fun error hl => ?_⟩
    · rw [hread, foldl_declare_of_ok (d := d.reportAll _) hl (fun t ht => (hfree t ht).2.1) hnodup]
      exact Draft.endLine_of_reads hend
    · rw [hread, foldl_declare_of_error (d := d.reportAll _) hl fun t ht => (hfree t ht).2.1]
      exact Draft.endLine_of_reads hend

/-- A line that declares new devices only is read without an issue. -/
theorem readDeviceLine_of_new (hp : c.Proper names) (hids : d.circuit.ids = d.declared)
    (hreads : c.Reads decl.symbols e) (hsuits : decl.Suits) (hnodup : decl.names.Nodup)
    (hnew : ∀ word ∈ decl.names, names.idOf word ∉ d.circuit.ids) :
    (readDeviceLine c d).2.issues = d.issues ∧
      (readDeviceLine c d).2.circuit.ids = d.circuit.ids ++ decl.names.map names.idOf := by
  obtain ⟨hfits, l, hl⟩ := hsuits
  obtain ⟨line, -, htext, hok, -⟩ := readDeviceLine_of_reads hp hids hreads hfits
  obtain ⟨htaken, hfree⟩ : takenNames names d.circuit.ids (line.filter Token.isName) = [] ∧
      freeNames names d.circuit.ids (line.filter Token.isName) = line.filter Token.isName :=
    takenNames_of_new (fun t ht => hnew t.text (htext ▸ List.mem_map_of_mem ht))
      (by rwa [htext])
  rw [hok l hl, htaken, hfree, Draft.ids_addDevices, ← htext, List.map_map]
  exact ⟨by simp [Draft.addDevices, Draft.reportAll], rfl⟩

/-- **What becomes of a device line.** Take a text that is read onto an empty board, and a place in
the section of devices that reading comes to, at which there is a device line that is right by the
grammar and has a parameter of 32 bits, if any. The line is read up to its end, and what is reported
of it is reported of the text.

The names of the line that a device has already, or that stand in it before, are reported in order
as defined already. If the kind takes the parameter, the other names become devices in order, and
that is all. If it does not, no device is made; the other names are reported in order, each at its
place. Then none of these is a device: a later line that declares such names, and others that are
new, is read without an issue. -/
theorem readDeviceLine_of_comesOnto {passLimit limit left : Nat} {source : String}
    (hcomes : ComesOnto (.empty passLimit) limit source .devices (left + 1) c d)
    (hreads : c.Reads decl.symbols e) (hfits : ParameterFits decl.parameter) :
    let names := (scan .empty source.toList).names
    let value := parameterValue decl.parameter
    ∃ (line : List Token) (d' : Draft),
      c.ahead = line ++ e.ahead ∧ (line.filter Token.isName).map (·.text) = decl.names ∧
      readDeviceLine c d = (e, d') ∧ ComesOnto (.empty passLimit) limit source .devices left e d' ∧
      d'.issues <+: (draftOnto (.empty passLimit) limit source).issues ∧
      let taken := takenNames names d.circuit.ids (line.filter Token.isName)
      let free := freeNames names d.circuit.ids (line.filter Token.isName)
      (∀ l, Logic.ofKind decl.kind value = .ok l →
        l.kind = decl.kind ∧ d' = (d.reportAll (taken.map takenIssue)).addDevices names l free) ∧
      ∀ error, Logic.ofKind decl.kind value = .error error →
        d' = d.reportAll (taken.map takenIssue ++ free.map (refusedIssue decl.kind value)) ∧
        (∀ t ∈ free, names.idOf t.text ∉ d'.circuit.ids) ∧
        ∀ (left' : Nat) (c' e' : Cursor) (d'' : Draft) (decl' : DeviceDecl),
          Reaches .devices left e d' (left' + 1) c' d'' → c'.Reads decl'.symbols e' →
          decl'.Suits → decl'.names.Nodup →
          (∀ word ∈ decl'.names, names.idOf word ∉ d''.circuit.ids) →
          (readDeviceLine c' d'').2.issues = d''.issues ∧
            (readDeviceLine c' d'').2.circuit.ids =
              d''.circuit.ids ++ decl'.names.map names.idOf := by
  intro names value
  obtain ⟨line, hline, htext, hok, herror⟩ :=
    readDeviceLine_of_reads hcomes.proper hcomes.ids_eq hreads hfits
  have hahead : c.ahead ≠ [] := by
    intro hnil
    rw [hline, List.append_eq_nil_iff] at hnil
    rw [hnil.1] at htext
    exact decl.names_ne_nil htext.symm
  have hnext := hcomes.next hahead
  rw [readLine] at hnext
  cases hl : Logic.ofKind decl.kind value with
  | ok l =>
    rw [hok l hl] at hnext
    refine ⟨line, _, hline, htext, hok l hl, hnext, hnext.leads.issues_isPrefix, ?_, ?_⟩
    · rintro l ⟨⟩
      exact ⟨Logic.kind_of_ofKind hl, rfl⟩
    · rintro error ⟨⟩
  | error error =>
    rw [herror error hl] at hnext
    refine ⟨line, _, hline, htext, herror error hl, hnext, hnext.leads.issues_isPrefix, ?_, ?_⟩
    · rintro l ⟨⟩
    · rintro error -
      refine ⟨Draft.reportAll_reportAll _ _ _, fun t ht => ?_, ?_⟩
      · exact ((freeNames_spec names d.circuit.ids [] _).1 t ht).2.1
      · intro left' c' e' d'' decl' hreaches hreads' hsuits hnodup hnew
        have hlater := hnext.trans hreaches
        exact readDeviceLine_of_new hlater.proper hlater.ids_eq hreads' hsuits hnodup hnew

/-- Two gates with three inputs, of which one is named twice, and one of them again with two. -/
def threeInputs : String :=
  "[devices]\nA, A, B = XOR(3);\nB = AND(2);\n[conns]\n[monit]\n"

theorem threeInputs_outcome :
    let names := (scan .empty threeInputs.toList).names
    let decl : DeviceDecl := ⟨["A", "A", "B"], .gate .xor, some "3", by decide⟩
    let decl' : DeviceDecl := ⟨["B"], .gate .and, some "2", by decide⟩
    ∃ (c e e' : Cursor) (d d' : Draft) (line : List Token),
      ComesOnto (.empty 20) 10 threeInputs .devices 10 c d ∧ c.Reads decl.symbols e ∧
      ParameterFits decl.parameter ∧ e.Reads decl'.symbols e' ∧
      c.ahead = line ++ e.ahead ∧ readDeviceLine c d = (e, d') ∧
      d' = d.reportAll ((takenNames names [] (line.filter Token.isName)).map takenIssue ++
        (freeNames names [] (line.filter Token.isName)).map (refusedIssue (.gate .xor) (some 3))) ∧
      (readDeviceLine e d').2.issues = d'.issues ∧
        (readDeviceLine e d').2.circuit.ids = [names.idOf "B"] := by
  intro names decl decl'
  have hbefore : (chunks (scan .empty threeInputs.toList).finish
      (scan .empty threeInputs.toList).tokens).1 = [] := by decide +kernel
  have hfirst : ∃ chunk pieces, (chunks (scan .empty threeInputs.toList).finish
      (scan .empty threeInputs.toList).tokens).2 = chunk :: pieces :=
    List.exists_cons_of_length_pos (by decide +kernel)
  obtain ⟨chunk, pieces, hchunk⟩ := hfirst
  have hfacts : ∀ chunk ∈ (chunks (scan .empty threeInputs.toList).finish
      (scan .empty threeInputs.toList).tokens).2.head?,
      chunk.heading? = some .devices ∧ chunk.closed = true ∧
        chunk.lines.ahead.map Token.symbol? = (decl.symbols ++ decl'.symbols).map some := by
    decide +kernel
  obtain ⟨hheading, hclosed, hspelled⟩ := hfacts chunk (by rw [hchunk]; rfl)
  have hcomes :
      ComesOnto (.empty 20) 10 threeInputs .devices 10 chunk.lines (startOn (.empty 20)) :=
    ComesOnto.first (Prod.ext hbefore hchunk) hheading hclosed
  obtain ⟨e, hreads, hrest⟩ := Cursor.exists_reads_of_spelled hspelled
  rw [← List.append_nil decl'.symbols] at hrest
  obtain ⟨e', hreads', -⟩ := Cursor.exists_reads_of_spelled hrest
  have hfits : ParameterFits decl.parameter := by rintro digits ⟨⟩; decide
  have hsuits : decl'.Suits := ⟨by rintro digits ⟨⟩; decide, _, rfl⟩
  obtain ⟨line, d', hline, -, hread, -, -, -, herror⟩ :=
    readDeviceLine_of_comesOnto hcomes hreads hfits
  obtain ⟨hd', -, hlater⟩ := herror _ rfl
  have hids : d'.circuit.ids = [] := by rw [hd']; rfl
  obtain ⟨hissues, hcreated⟩ :=
    hlater 8 e e' d' decl' .refl hreads' hsuits (by decide) (by simp [hids])
  refine ⟨_, e, e', _, d', line, hcomes, hreads, hfits, hreads', hline, hread, hd', hissues, ?_⟩
  rw [hcreated, hids]
  rfl

example : (readOnto (.empty 20) 10 threeInputs).diagnostics.map (fun d => (d.kind, d.position)) =
    [(.nameDefined, ⟨1, 3⟩), (.invalidNumber, ⟨1, 0⟩), (.invalidNumber, ⟨1, 6⟩)] := by
  decide +kernel

end Definition

end Breadboard
