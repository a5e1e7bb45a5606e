import Breadboard.Proofs.Definition.DeviceNames
import Breadboard.Proofs.Definition.Layout

/-!
# Device lines

The reader of device lines and the grammar agree. Read without issues, a line is one that the
grammar derives, with a parameter that suits its kind and new names, and the draft has its parts
afterwards; and each such line is read that way.

* `readDeviceLine_sound`, `readDeviceLine_complete`: the two directions.
-/
namespace Breadboard.Definition

variable {names : NameTable} {passLimit : Nat} {c c' e : Cursor} {d d' : Draft} {s : Symbol}
  {ss : List Symbol}

/-! ## Ends of lines -/

theorem Draft.endLine_of_reads (h : c.Reads (.mark .semicolon :: ss) e) :
    d.endLine c = (c.advance, d) := by
  rw [endLine, if_pos (Cursor.isAt_iff.2 h.current)]

/-- A line that ends without an issue ends at its semicolon. -/
theorem Draft.endLine_sound (hp : c.Proper names) (h : d.endLine c = (c', d'))
    (hissues : d'.issues = []) : c.Reads [.mark .semicolon] c' ∧ d' = d := by
  unfold endLine at h
  split at h
  · rename_i hat
    obtain ⟨rfl, rfl⟩ := Prod.mk.inj h
    exact ⟨.cons hp (Cursor.isAt_iff.1 hat) (by decide) (.refl _), rfl⟩
  split at h
  all_goals
    obtain ⟨-, rfl⟩ := Prod.mk.inj h
    exact absurd hissues (d.report_issues_ne_nil _)

/-! ## Kinds and parameters -/

theorem number?_eq_some_iff {t : Token} {value : UInt32} :
    t.number? = some value ↔
      t.kind = .number ∧ Token.digitsValue t.text.toList < UInt32.size ∧
        UInt32.ofNat (Token.digitsValue t.text.toList) = value := by
  unfold Token.number?
  split
  · rename_i hkind
    simp [hkind]
  · rename_i hkind
    simp [hkind]

theorem readParameter_sound {value : Option UInt32} (hp : c.Proper names)
    (h : readParameter c = .ok (value, c')) :
    ∃ parameter, ParameterFits parameter ∧ value = parameterValue parameter ∧
      c.Reads (parameterSymbols parameter) c' := by
  simp only [readParameter] at h
  split at h
  · cases h
    exact ⟨none, by simp [ParameterFits], rfl, .refl c⟩
  rename_i hopen
  have hopen : c.isAt .openBracket = true := by simpa using hopen
  split at h
  · cases h
  split at h
  · cases h
  rename_i number hnumber
  obtain ⟨hkind, hfits, hvalue⟩ := number?_eq_some_iff.1 hnumber
  split at h
  · rename_i hclose
    cases h
    refine ⟨some c.advance.current.text, by simpa [ParameterFits] using hfits, hvalue ▸ rfl, ?_⟩
    refine .cons hp (Cursor.isAt_iff.1 hopen) (by decide) (.cons hp.advance ?_ (by simp)
      (.cons hp.advance.advance (Cursor.isAt_iff.1 hclose) (by decide) (.refl _)))
    exact Token.symbol?_eq_number_iff.2 ⟨hkind, rfl⟩
  · cases h

theorem readParameter_complete {parameter : Option String}
    (hr : c.Reads (parameterSymbols parameter) e) (hend : e.isAt .openBracket = false)
    (hfits : ParameterFits parameter) :
    readParameter c = .ok (parameterValue parameter, e) := by
  cases parameter with
  | none =>
    obtain rfl := hr.eq
    simp [readParameter, hend, parameterValue]
  | some digits =>
    have hopen : c.isAt .openBracket = true := Cursor.isAt_iff.2 hr.current
    have hnumber : c.advance.current.symbol? = some (.number digits) := hr.advance.current
    obtain ⟨hkind, htext⟩ := Token.symbol?_eq_number_iff.1 hnumber
    have hvalue : c.advance.current.number? =
        some (UInt32.ofNat (Token.digitsValue digits.toList)) := by
      rw [number?_eq_some_iff, htext]
      exact ⟨hkind, hfits digits rfl, rfl⟩
    have hclose : c.advance.advance.isAt .closeBracket = true :=
      Cursor.isAt_iff.2 hr.advance.advance.current
    obtain rfl := hr.advance.advance.advance.eq
    simp [readParameter, hopen, hkind, hvalue, hclose, parameterValue]

theorem readKind_sound {kind : DeviceKind} {value : Option UInt32} (hp : c.Proper names)
    (h : readKind c = .ok ((kind, value), c')) :
    ∃ parameter, ParameterFits parameter ∧ value = parameterValue parameter ∧
      c.Reads (.mark .equal :: .keyword kind :: parameterSymbols parameter) c' := by
  simp only [readKind] at h
  split at h
  · cases h
  rename_i hequal
  have hequal : c.isAt .equal = true := by simpa using hequal
  split at h
  · rename_i kind' id hkind
    cases hread : readParameter c.advance.advance with
    | error issue => simp [hread, Except.map] at h
    | ok x =>
      rw [hread] at h
      cases h
      obtain ⟨parameter, hfits, hvalue, hreads⟩ := readParameter_sound hp.advance.advance hread
      refine ⟨parameter, hfits, hvalue, ?_⟩
      refine .cons hp (Cursor.isAt_iff.1 hequal) (by decide) (.cons hp.advance ?_ (by simp) hreads)
      exact Token.symbol?_eq_keyword_iff.2 ⟨id, hkind⟩
  · cases h

theorem readKind_complete {kind : DeviceKind} {parameter : Option String}
    (hr : c.Reads (.mark .equal :: .keyword kind :: parameterSymbols parameter) e)
    (hend : e.isAt .openBracket = false) (hfits : ParameterFits parameter) :
    readKind c = .ok ((kind, parameterValue parameter), e) := by
  have hequal : c.isAt .equal = true := Cursor.isAt_iff.2 hr.current
  have hkeyword : c.advance.current.symbol? = some (.keyword kind) := hr.advance.current
  obtain ⟨id, hkind⟩ := Token.symbol?_eq_keyword_iff.1 hkeyword
  have hread := readParameter_complete hr.advance.advance hend hfits
  simp [readKind, hequal, hkind, hread, Except.map]

/-! ## Lines -/

section
variable {k : Layout} {kind : DeviceKind} {value : Option UInt32}

theorem declare_issues_ne_nil {error : DeviceError} (h : Logic.ofKind kind value = .error error)
    (d : Draft) (name : NameId × Token) : (d.declare kind value name).issues ≠ [] := by
  have hadd : ∃ error', d.circuit.addDevice name.1 kind value = .error error' := by
    unfold Circuit.addDevice
    split
    · exact ⟨_, rfl⟩
    · exact ⟨error, by rw [h]⟩
  obtain ⟨error', hadd⟩ := hadd
  simp only [Draft.declare, hadd]
  split
  · rename_i hok
    cases hok
  all_goals exact d.report_issues_ne_nil _

theorem exists_ofKind_of_foldl_declare {read : List (NameId × Token)} (hread : read ≠ [])
    (h : (read.foldl (·.declare kind value ·) d).issues = []) :
    ∃ l, Logic.ofKind kind value = .ok l := by
  cases hl : Logic.ofKind kind value with
  | ok l => exact ⟨l, rfl⟩
  | error error =>
    obtain ⟨name, rest, rfl⟩ := List.exists_cons_of_ne_nil hread
    have hbuilds := Draft.builds_foldl (fun d => d.builds_declare kind value) rest
      (d.declare kind value name)
    exact absurd (hbuilds.leads.issues_eq_nil h) (declare_issues_ne_nil hl d name)

theorem declare_draft {t : Token} {l : Logic} (hk : k.Sound names)
    (hname : t.text ∈ names.names) (hnew : t.text ∉ k.parts.map (·.name))
    (hl : Logic.ofKind kind value = .ok l) :
    (k.draft names passLimit).declare kind value (tagged names t) =
      (k.addParts [⟨t.text, l⟩]).draft names passLimit := by
  have hadd := Layout.addDevice_circuit (p := ⟨t.text, l⟩) passLimit hk hname hnew hl
  simp only [Draft.declare, tagged, Layout.draft, hadd]
  simp [Layout.addParts, Layout.probes]

theorem foldl_declare_draft (passLimit : Nat) {ts : List Token} {l : Logic} (hk : k.Sound names)
    (hnames : ∀ t ∈ ts, t.text ∈ names.names)
    (hnodup : (k.parts.map (·.name) ++ ts.map (·.text)).Nodup)
    (hl : Logic.ofKind kind value = .ok l) :
    (ts.map (tagged names)).foldl (·.declare kind value ·) (k.draft names passLimit) =
      (k.addParts (ts.map fun t => ⟨t.text, l⟩)).draft names passLimit := by
  induction ts generalizing k with
  | nil => simp [Layout.addParts]
  | cons t ts ih =>
    have hnew : t.text ∉ k.parts.map (·.name) := by
      intro hmem
      rw [List.nodup_append'] at hnodup
      exact hnodup.2.2 hmem List.mem_cons_self
    have hname := hnames t List.mem_cons_self
    have hparts : ((k.parts ++ [(⟨t.text, l⟩ : Part)]).map (·.name)).Nodup := by
      rw [List.map_append]
      rw [List.map_cons, ← List.singleton_append, ← List.append_assoc] at hnodup
      exact (List.nodup_append'.1 hnodup).1
    have hk' : (k.addParts [⟨t.text, l⟩]).Sound names :=
      hk.addParts (by simpa using hname) hparts (by simpa using Logic.fresh_of_ofKind hl)
    rw [List.map_cons, List.foldl_cons, declare_draft hk hname hnew hl,
      ih hk' (fun u hu => hnames u (List.mem_cons_of_mem _ hu))
        (by simpa [Layout.addParts] using hnodup)]
    simp [Layout.addParts]

end

def DeviceDecl.content (decl : DeviceDecl) : List Symbol :=
  nameSymbols decl.names ++ .mark .equal :: .keyword decl.kind :: parameterSymbols decl.parameter

/-- The line may come after lines that declare a given layout. -/
structure DeviceDecl.Valid (k : Layout) (decl : DeviceDecl) : Prop where
  suits : decl.Suits
  nodup : (k.parts.map (·.name) ++ decl.names).Nodup

theorem DeviceDecl.parts_eq {decl : DeviceDecl} {l : Logic}
    (h : Logic.ofKind decl.kind (parameterValue decl.parameter) = .ok l) :
    decl.parts = decl.names.map fun name => ⟨name, l⟩ := by
  rw [parts, h]

theorem DeviceDecl.mem_names {decl : DeviceDecl} (hp : c.Proper names)
    (hr : c.Reads decl.content e) {word : String} (hword : word ∈ decl.names) :
    word ∈ names.names := by
  refine hp.mem_names hr ?_
  simp only [DeviceDecl.content, List.mem_append]
  exact Or.inl (mem_separated hword (List.mem_singleton_self _))

theorem readDeviceLine_sound {k : Layout} (hp : c.Proper names) (hk : k.Sound names)
    (h : readDeviceLine c (k.draft names passLimit) = (c', d')) (hissues : d'.issues = []) :
    ∃ decl : DeviceDecl, decl.Valid k ∧ c.Reads decl.symbols c' ∧
      d' = (k.addParts decl.parts).draft names passLimit := by
  unfold readDeviceLine at h
  split at h
  · obtain ⟨-, rfl⟩ := Prod.mk.inj h
    exact absurd hissues (Draft.report_issues_ne_nil _ _)
  rename_i d₁ read c₁ hread
  split at h
  · obtain ⟨-, rfl⟩ := Prod.mk.inj h
    exact absurd hissues (Draft.report_issues_ne_nil _ _)
  rename_i kind value c₂ hkind
  have hfold : ((read.foldl (·.declare kind value ·) d₁)).issues = [] := by
    have hbuilds := Draft.builds_endLine (read.foldl (·.declare kind value ·) d₁) c₂
    rw [h] at hbuilds
    exact hbuilds.leads.issues_eq_nil hissues
  have hd₁ : d₁.issues = [] :=
    (Draft.builds_foldl (fun d => d.builds_declare kind value) read d₁).leads.issues_eq_nil hfold
  obtain ⟨rfl, ts, hts, rfl, hnames, hfresh, hnodup⟩ :=
    readNames_sound hp hread hd₁ List.nodup_nil
  have hp₁ := hp.of_reads hnames
  obtain ⟨parameter, hfits, rfl, hkindReads⟩ := readKind_sound hp₁ hkind
  obtain ⟨hend, rfl⟩ := Draft.endLine_sound (hp₁.of_reads hkindReads) h hissues
  obtain ⟨l, hl⟩ := exists_ofKind_of_foldl_declare (by simpa using hts) hfold
  let decl : DeviceDecl := ⟨ts.map (·.text), kind, parameter, by simpa using hts⟩
  have hreads : c.Reads decl.symbols c' := by
    have htrans := (hnames.trans hkindReads).trans hend
    simpa only [DeviceDecl.symbols, List.append_assoc] using htrans
  have hinterned : ∀ t ∈ ts, t.text ∈ names.names := fun t ht =>
    hp.mem_names hnames (mem_separated (List.mem_map_of_mem ht) (List.mem_singleton_self _))
  have hvalid : (k.parts.map (·.name) ++ decl.names).Nodup := by
    have hids : ((ts.map (·.text)).map names.idOf).Nodup := by
      rw [List.map_map]
      rwa [List.nil_append, List.map_map] at hnodup
    rw [List.nodup_append']
    refine ⟨hk.nodup, hids.of_map, fun word hword hword' => ?_⟩
    obtain ⟨t, ht, rfl⟩ := List.mem_map.1 hword'
    exact hfresh t ht ((hk.idOf_mem_iff (hinterned t ht)).2 hword)
  refine ⟨decl, ⟨⟨hfits, l, hl⟩, hvalid⟩, hreads, ?_⟩
  rw [List.nil_append, foldl_declare_draft passLimit hk hinterned hvalid hl, DeviceDecl.parts_eq hl,
    List.map_map]
  rfl

/-- The tokens of the content behind the names are no names. -/
theorem filter_isName_eq_nil {line : List Token} {ss : List Symbol} (h : Spelled line ss)
    (hss : ∀ s ∈ ss, ∀ word, s ≠ .name word) : line.filter Token.isName = [] := by
  refine List.filter_eq_nil_iff.2 fun t ht hname => ?_
  have hmem : t.symbol? ∈ ss.map some := h ▸ List.mem_map_of_mem ht
  obtain ⟨s, hs, hsymbol⟩ := List.mem_map.1 hmem
  unfold Token.isName at hname
  split at hname
  · rename_i id hkind
    refine hss s hs t.text (Option.some.inj ?_)
    rw [hsymbol]
    exact Token.symbol?_eq_name_iff.2 ⟨⟨id, hkind⟩, rfl⟩
  · cases hname

/-- A device line in which the semicolon is left out of account is read up to its end. -/
theorem readDeviceLine_of_content {decl : DeviceDecl} (hp : c.Proper names)
    (hr : c.Reads decl.content e) (hend : e.isAt .openBracket = false)
    (hfits : ParameterFits decl.parameter) :
    ∃ line : List Token, c.ahead = line ++ e.ahead ∧
      (line.filter Token.isName).map (·.text) = decl.names ∧
      readDeviceLine c d =
        (((freeNames names d.declared (line.filter Token.isName)).map (tagged names)).foldl
          (·.declare decl.kind (parameterValue decl.parameter) ·)
          (d.reportAll ((takenNames names d.declared (line.filter Token.isName)).map
            takenIssue))).endLine e := by
  obtain ⟨c₁, hnames, hkind⟩ := hr.split
  have hcomma : c₁.isAt .comma = false := by
    rw [← Bool.not_eq_true, Cursor.isAt_iff, hkind.current]
    decide
  have hstart : Collected names d.declared [] [] := fun _ _ => by simp
  obtain ⟨line, hline, htext, hread⟩ := hstart.readNames hp decl.names_ne_nil hnames hcomma
  obtain ⟨more, hmore, -, hspelled⟩ := hkind.ahead
  have hnone : more.filter Token.isName = [] := by
    refine filter_isName_eq_nil hspelled fun s hs word he => ?_
    subst he
    cases hparameter : decl.parameter <;> simp [parameterSymbols, hparameter] at hs
  refine ⟨line ++ more, by rw [hline, hmore, List.append_assoc], ?_, ?_⟩
  · rw [List.filter_append, hnone, List.append_nil, htext]
  · simp only [readDeviceLine, hread, readKind_complete hkind hend hfits, List.nil_append]
    rw [List.filter_append, hnone, List.append_nil]

theorem readDeviceLine_complete (passLimit : Nat) {k : Layout} {decl : DeviceDecl}
    (hp : c.Proper names) (hk : k.Sound names) (hr : c.Reads decl.content e)
    (hend : e.isAt .openBracket = false) (hvalid : decl.Valid k) :
    readDeviceLine c (k.draft names passLimit) =
      ((k.addParts decl.parts).draft names passLimit).endLine e := by
  obtain ⟨⟨hfits, l, hl⟩, hnodup⟩ := hvalid
  obtain ⟨-, hnames, hnew⟩ := List.nodup_append'.1 hnodup
  have hinterned : ∀ word ∈ decl.names, word ∈ names.names := fun _ => decl.mem_names hp hr
  obtain ⟨line, -, htext, hread⟩ :=
    readDeviceLine_of_content (d := k.draft names passLimit) hp hr hend hfits
  set ts := line.filter Token.isName
  have hword : ∀ t ∈ ts, t.text ∈ decl.names := fun t ht => htext ▸ List.mem_map_of_mem ht
  have hfresh : ∀ t ∈ ts, names.idOf t.text ∉ (k.draft names passLimit).declared :=
    fun t ht hmem => hnew ((hk.idOf_mem_iff (hinterned _ (hword t ht))).1 hmem) (hword t ht)
  obtain ⟨htaken, hfree⟩ := takenNames_of_new hfresh (by rwa [htext])
  have hfold := foldl_declare_draft passLimit hk (fun t ht => hinterned _ (hword t ht))
    (by rwa [htext]) hl
  rw [hread, htaken, hfree, DeviceDecl.parts_eq hl, ← htext, List.map_map]
  exact congrArg (Draft.endLine · e) hfold

end Breadboard.Definition
