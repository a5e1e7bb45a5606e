import Breadboard.Proofs.Definition.Changes
import Breadboard.Proofs.Definition.Reads

/-!
# Names of a device line

What the reader makes of the names in a device line. A name is taken if a device has it that has
been declared, or if it stands earlier in the line; it is reported and left out. The others are
free.

* `readNames_sound`: names that are read without an issue are new ones.
* `Collected.readNames`: of the names of a line the free ones are read, and the taken ones reported.
* `takenNames_of_new`: new names are free.
-/
namespace Breadboard.Definition

variable {names : NameTable} {c c' e : Cursor} {d d' : Draft} {s : Symbol}

/-! ## Lists -/

theorem separated_cons {α : Type} {symbols : α → List Symbol} {x : α} {rest : List α}
    (h : rest ≠ []) :
    separated symbols (x :: rest) = symbols x ++ .mark .comma :: separated symbols rest := by
  cases rest with
  | nil => exact absurd rfl h
  | cons y rest => rfl

theorem separated_concat {α : Type} {symbols : α → List Symbol} (init : List α) (x : α) :
    separated symbols (init ++ [x]) =
      (init.flatMap fun y => symbols y ++ [.mark .comma]) ++ symbols x := by
  induction init with
  | nil => rfl
  | cons y init ih =>
    rw [List.cons_append, separated_cons (by simp), ih]
    simp

theorem mem_separated {α : Type} {symbols : α → List Symbol} {xs : List α} {x : α} (hx : x ∈ xs)
    (hs : s ∈ symbols x) : s ∈ separated symbols xs := by
  induction xs with
  | nil => cases hx
  | cons y rest ih =>
    by_cases hrest : rest = []
    · subst hrest
      rwa [List.mem_singleton.1 hx] at hs
    · rw [separated_cons hrest, List.mem_append, List.mem_cons]
      rcases List.mem_cons.1 hx with rfl | hx
      · exact Or.inl hs
      · exact Or.inr (Or.inr (ih hx))

/-! ## Names -/

abbrev nameSymbols (words : List String) : List Symbol :=
  separated (fun word => [.name word]) words

/-- What a name token is to the reader of device lines. -/
def tagged (names : NameTable) (t : Token) : NameId × Token := (names.idOf t.text, t)

theorem takeName_sound {t : Token} {acc read : List (NameId × Token)} (hn : t.Numbered names)
    (hacc : (acc.map (·.1)).Nodup) (h : d.takeName acc t = .ok (read, d'))
    (hissues : d'.issues = []) :
    d' = d ∧ t.symbol? = some (.name t.text) ∧ names.idOf t.text ∉ d.declared ∧
      read = acc ++ [tagged names t] ∧ (read.map (·.1)).Nodup := by
  unfold Draft.takeName at h
  split at h
  · rename_i id hkind
    obtain rfl := hn.idOf_eq hkind
    split at h
    · cases h
      exact absurd hissues (d.report_issues_ne_nil _)
    · rename_i hnew
      cases h
      simp only [Bool.or_eq_true, List.contains_iff_mem, List.any_eq_true, beq_iff_eq,
        not_or, not_exists, not_and] at hnew
      refine ⟨rfl, Token.symbol?_eq_name_iff.2 ⟨⟨_, hkind⟩, rfl⟩, hnew.1, rfl, ?_⟩
      rw [List.map_append, List.map_singleton, List.nodup_append']
      refine ⟨hacc, List.nodup_singleton _, fun id hid hid' => ?_⟩
      obtain ⟨x, hx, rfl⟩ := List.mem_map.1 hid
      exact hnew.2 x hx (List.mem_singleton.1 hid')
  · cases h
    exact absurd hissues (d.report_issues_ne_nil _)
  · cases h

theorem readNames_cons {acc : List (NameId × Token)} {t : Token} {rest : List Token}
    (hc : c.ahead = t :: rest) :
    readNames acc c d =
      match d.takeName acc t with
      | .error issue => (d, .error issue)
      | .ok (names, d) =>
        if c.advance.isAt .comma then readNames names c.advance.advance d
        else (d, .ok (names, c.advance)) := by
  rw [readNames]
  split
  · rename_i hnil
    rw [hc] at hnil
    cases hnil
  · rename_i t' _ hcons
    rw [hc] at hcons
    obtain ⟨rfl, -⟩ := List.cons.inj hcons
    rfl

/-- Names that are read without an issue are new ones. -/
theorem readNames_sound {acc read : List (NameId × Token)} (hp : c.Proper names)
    (h : readNames acc c d = (d', .ok (read, c'))) (hissues : d'.issues = [])
    (hacc : (acc.map (·.1)).Nodup) :
    d' = d ∧ ∃ ts : List Token, ts ≠ [] ∧ read = acc ++ ts.map (tagged names) ∧
      c.Reads (nameSymbols (ts.map (·.text))) c' ∧
      (∀ t ∈ ts, names.idOf t.text ∉ d.declared) ∧ (read.map (·.1)).Nodup := by
  fun_induction readNames acc c d with
  | case1 => cases h
  | case2 => cases h
  | case3 acc c d t rest hc names' d₁ htake hcomma ih =>
    have hd₁ : d₁.issues = [] := by
      have hbuilds := builds_readNames names' c.advance.advance d₁
      rw [h] at hbuilds
      exact hbuilds.leads.issues_eq_nil hissues
    have hnumbered : t.Numbered names := hp.numbered t (hc ▸ List.mem_cons_self)
    obtain ⟨rfl, hsymbol, hnew, rfl, hnodup⟩ := takeName_sound hnumbered hacc htake hd₁
    obtain ⟨rfl, ts, hts, rfl, hreads, hfresh, hnodup'⟩ := ih hp.advance.advance h hnodup
    refine ⟨rfl, t :: ts, List.cons_ne_nil _ _, ?_, ?_, ?_, hnodup'⟩
    · rw [List.map_cons, List.append_assoc, List.singleton_append]
    · rw [List.map_cons, nameSymbols, separated_cons (by simpa using hts)]
      rw [← Cursor.current_cons hc] at hsymbol ⊢
      exact .cons hp hsymbol (by simp)
        (.cons hp.advance (Cursor.isAt_iff.1 hcomma) (by decide) hreads)
    · exact List.forall_mem_cons.2 ⟨hnew, hfresh⟩
  | case4 acc c d t rest hc names' d₁ htake hcomma =>
    obtain ⟨rfl, hok⟩ := Prod.mk.inj h
    obtain ⟨rfl, rfl⟩ := Prod.mk.inj (Except.ok.inj hok)
    have hnumbered : t.Numbered names := hp.numbered t (hc ▸ List.mem_cons_self)
    obtain ⟨rfl, hsymbol, hnew, rfl, hnodup⟩ := takeName_sound hnumbered hacc htake hissues
    refine ⟨rfl, [t], List.cons_ne_nil _ _, rfl, ?_, by simpa using hnew, hnodup⟩
    rw [← Cursor.current_cons hc] at hsymbol ⊢
    exact .cons hp hsymbol (by simp) (.refl _)

/-! ## Names that are taken -/

/-- Whether the token is a word that may be a name. -/
def Token.isName (t : Token) : Bool :=
  match t.kind with
  | .name _ => true
  | _ => false

/-- The tokens for which a test succeeds that also sees the tokens before them. -/
def filterAfter (test : List Token → Token → Bool) (before : List Token) : List Token → List Token
  | [] => []
  | t :: ts =>
    if test before t then t :: filterAfter test (before ++ [t]) ts
    else filterAfter test (before ++ [t]) ts

/-- Whether a name is taken: by a device that has been created, or by one of the names before it. -/
def nameTaken (names : NameTable) (created : List NameId) (before : List Token) (t : Token) :
    Bool :=
  created.contains (names.idOf t.text) || before.any (·.text == t.text)

abbrev takenNames (names : NameTable) (created : List NameId) (ts : List Token) : List Token :=
  filterAfter (nameTaken names created) [] ts

abbrev freeNames (names : NameTable) (created : List NameId) (ts : List Token) : List Token :=
  filterAfter (fun before t => !nameTaken names created before t) [] ts

def takenIssue (t : Token) : Issue := (Fault.alreadyDefined t.text).on t

def Draft.reportAll (d : Draft) (is : List Issue) : Draft := { d with issues := d.issues ++ is }

theorem Draft.reportAll_reportAll (d : Draft) (is js : List Issue) :
    (d.reportAll is).reportAll js = d.reportAll (is ++ js) := by
  simp [reportAll]

section
variable {created : List NameId} {before ts : List Token} {t : Token}

theorem nameTaken_iff :
    nameTaken names created before t = true ↔
      names.idOf t.text ∈ created ∨ t.text ∈ before.map (·.text) := by
  simp [nameTaken]

theorem nameTaken_eq_false_iff :
    nameTaken names created before t = false ↔
      names.idOf t.text ∉ created ∧ t.text ∉ before.map (·.text) := by
  rw [← Bool.not_eq_true, nameTaken_iff, not_or]

theorem filterAfter_nameTaken_of_new (before : List Token)
    (hnew : ∀ t ∈ ts, names.idOf t.text ∉ created)
    (hnodup : ((before ++ ts).map (·.text)).Nodup) :
    filterAfter (nameTaken names created) before ts = [] ∧
      filterAfter (fun before t => !nameTaken names created before t) before ts = ts := by
  induction ts generalizing before with
  | nil => exact ⟨rfl, rfl⟩
  | cons t ts ih =>
    obtain ⟨ht, hnew⟩ := List.forall_mem_cons.1 hnew
    have hfirst : t.text ∉ before.map (·.text) := by
      rw [List.map_append, List.nodup_append'] at hnodup
      exact fun hmem => hnodup.2.2 hmem List.mem_cons_self
    have hfree : nameTaken names created before t = false := nameTaken_eq_false_iff.2 ⟨ht, hfirst⟩
    obtain ⟨htaken, hrest⟩ := ih (before ++ [t]) hnew (by simpa using hnodup)
    simp [filterAfter, hfree, htaken, hrest]

theorem takenNames_of_new (hnew : ∀ t ∈ ts, names.idOf t.text ∉ created)
    (hnodup : (ts.map (·.text)).Nodup) :
    takenNames names created ts = [] ∧ freeNames names created ts = ts :=
  filterAfter_nameTaken_of_new [] hnew hnodup

/-- The free names are names of the line, each of them once, and none of a device. -/
theorem freeNames_spec (names : NameTable) (created : List NameId) (before ts : List Token) :
    (∀ u ∈ filterAfter (fun before t => !nameTaken names created before t) before ts,
      u ∈ ts ∧ names.idOf u.text ∉ created ∧ u.text ∉ before.map (·.text)) ∧
    ((filterAfter (fun before t => !nameTaken names created before t) before ts).map
      (·.text)).Nodup := by
  induction ts generalizing before with
  | nil => exact ⟨fun u hu => absurd hu List.not_mem_nil, List.nodup_nil⟩
  | cons t ts ih =>
    obtain ⟨hmem, hnodup⟩ := ih (before ++ [t])
    have hrest : ∀ u ∈ filterAfter (fun before t => !nameTaken names created before t)
        (before ++ [t]) ts, u ∈ t :: ts ∧ names.idOf u.text ∉ created ∧
          u.text ∉ before.map (·.text) := by
      intro u hu
      obtain ⟨hts, hcreated, hbefore⟩ := hmem u hu
      rw [List.map_append, List.mem_append, not_or] at hbefore
      exact ⟨List.mem_cons_of_mem t hts, hcreated, hbefore.1⟩
    rw [filterAfter]
    split
    · rename_i htest
      have hfree := nameTaken_eq_false_iff.1 (by simpa using htest)
      refine ⟨List.forall_mem_cons.2 ⟨⟨List.mem_cons_self, hfree⟩, hrest⟩, ?_⟩
      rw [List.map_cons, List.nodup_cons]
      refine ⟨fun ht => ?_, hnodup⟩
      obtain ⟨u, hu, htext⟩ := List.mem_map.1 ht
      obtain ⟨-, -, hbefore⟩ := hmem u hu
      exact hbefore (by simp [htext])
    · exact ⟨hrest, hnodup⟩

end

theorem takeName_of_name {t : Token} {acc : List (NameId × Token)} {id : NameId}
    (hkind : t.kind = .name id) :
    d.takeName acc t =
      if id ∈ d.declared ∨ id ∈ acc.map (·.1) then .ok (acc, d.report (takenIssue t))
      else .ok (acc ++ [(id, t)], d) := by
  simp only [Draft.takeName, hkind, takenIssue, Bool.or_eq_true, List.contains_iff_mem,
    List.any_eq_true, beq_iff_eq, List.mem_map]

/-- What has been read of a line counts as declared together with the names of the line so far. -/
def Collected (names : NameTable) (declared : List NameId) (acc : List (NameId × Token))
    (before : List Token) : Prop :=
  ∀ word ∈ names.names, (names.idOf word ∈ declared ∨ names.idOf word ∈ acc.map (·.1)) ↔
    (names.idOf word ∈ declared ∨ word ∈ before.map (·.text))

/-- A name that is taken is reported, and one that is free is read. -/
theorem Collected.takeName {acc : List (NameId × Token)} {before : List Token} {t : Token}
    {id : NameId} (h : Collected names d.declared acc before) (hn : t.Numbered names)
    (hkind : t.kind = .name id) :
    ∃ acc' is, d.takeName acc t = .ok (acc', d.reportAll is) ∧
      Collected names d.declared acc' (before ++ [t]) ∧
      ∀ ts,
        (filterAfter (nameTaken names d.declared) before (t :: ts)).map takenIssue =
          is ++ (filterAfter (nameTaken names d.declared) (before ++ [t]) ts).map takenIssue ∧
        acc ++ (filterAfter (fun before t => !nameTaken names d.declared before t) before
            (t :: ts)).map (tagged names) =
          acc' ++ (filterAfter (fun before t => !nameTaken names d.declared before t)
            (before ++ [t]) ts).map (tagged names) := by
  have hid : names.idOf t.text = id := hn.idOf_eq hkind
  have hword : t.text ∈ names.names := hn.mem_names hkind
  have hused : (id ∈ d.declared ∨ id ∈ acc.map (·.1)) ↔
      nameTaken names d.declared before t = true := by
    rw [nameTaken_iff, ← h t.text hword, hid]
  cases htaken : nameTaken names d.declared before t with
  | true =>
    refine ⟨acc, [takenIssue t], ?_, fun word hmem => ?_, fun ts => ?_⟩
    · rw [takeName_of_name hkind, if_pos (hused.2 htaken)]
      rfl
    · -- the name is among the others already
      rw [h word hmem, List.map_append, List.mem_append, List.map_singleton, List.mem_singleton,
        ← or_assoc]
      exact (or_iff_left_of_imp fun he => he ▸ nameTaken_iff.1 htaken).symm
    · simp [filterAfter, htaken]
  | false =>
    refine ⟨acc ++ [(id, t)], [], ?_, fun word hmem => ?_, fun ts => ?_⟩
    · rw [takeName_of_name hkind, if_neg (by rw [hused, htaken]; exact Bool.false_ne_true)]
      simp [Draft.reportAll]
    · have hsame : names.idOf word = id ↔ word = t.text :=
        ⟨fun he => NameTable.idOf_inj hmem hword (he.trans hid.symm), fun he => he ▸ hid⟩
      simp only [List.map_append, List.mem_append, List.map_singleton, List.mem_singleton, hsame]
      rw [← or_assoc, h word hmem, or_assoc]
    · simp [filterAfter, htaken, tagged, hid]

/-- Of the names of a line the free ones are read, and the taken ones are reported. -/
theorem Collected.readNames {words : List String} {acc : List (NameId × Token)}
    {before : List Token} (h : Collected names d.declared acc before) (hp : c.Proper names)
    (hwords : words ≠ []) (hr : c.Reads (nameSymbols words) e) (hend : e.isAt .comma = false) :
    ∃ line : List Token, c.ahead = line ++ e.ahead ∧
      (line.filter Token.isName).map (·.text) = words ∧
      Definition.readNames acc c d =
        (d.reportAll ((filterAfter (nameTaken names d.declared) before
            (line.filter Token.isName)).map takenIssue),
          .ok (acc ++ (filterAfter (fun before t => !nameTaken names d.declared before t) before
            (line.filter Token.isName)).map (tagged names), e)) := by
  induction words generalizing acc before c d with
  | nil => exact absurd rfl hwords
  | cons word words ih =>
    have hfirst : ∃ more, c.Reads (.name word :: more) e := by
      cases words with
      | nil => exact ⟨_, hr⟩
      | cons word' words => exact ⟨_, hr⟩
    obtain ⟨more, hmore⟩ := hfirst
    obtain ⟨t, rest, hc, ht, -⟩ := hmore.cons_ahead
    obtain ⟨⟨id, hkind⟩, rfl⟩ := Token.symbol?_eq_name_iff.1 ht
    have hname : t.isName = true := by rw [Token.isName, hkind]
    obtain ⟨acc', is, htake, hcollected, hstep⟩ :=
      h.takeName (hp.numbered t (hc ▸ List.mem_cons_self)) hkind
    rw [readNames_cons hc, htake]
    cases words with
    | nil =>
      obtain rfl := Cursor.Reads.eq (c := c.advance) hr.advance
      refine ⟨[t], ?_, ?_, ?_⟩
      · rw [hc, Cursor.advance_cons hc]
        rfl
      · simp [hname]
      · obtain ⟨htaken, hfree⟩ := hstep []
        simp only [hend, Bool.false_eq_true, if_false]
        rw [List.filter_cons_of_pos hname, List.filter_nil, htaken, hfree]
        simp [filterAfter]
    | cons word' words =>
      have hadvance : c.advance.Reads (.mark .comma :: nameSymbols (word' :: words)) e :=
        hr.advance
      have hat : c.advance.isAt .comma = true := Cursor.isAt_iff.2 hadvance.current
      obtain ⟨comma, later, hcomma, hmark, -⟩ := hadvance.cons_ahead
      have hmark : comma.isName = false := by
        rw [Token.isName, Token.symbol?_eq_mark_iff.1 hmark]
      obtain ⟨line, hline, htext, hread⟩ := ih (d := d.reportAll is) hcollected
        hp.advance.advance (List.cons_ne_nil _ _) hadvance.advance
      refine ⟨t :: comma :: line, ?_, ?_, ?_⟩
      · have hrest : rest = comma :: later := by rw [← hcomma, Cursor.advance_cons hc]
        have hlater : later = line ++ e.ahead := by rw [← hline, Cursor.advance_cons hcomma]
        rw [hc, hrest, hlater]
        rfl
      · simp [hname, hmark, htext]
      · obtain ⟨htaken, hfree⟩ := hstep (line.filter Token.isName)
        simp only [hat, if_true]
        rw [hread, List.filter_cons_of_pos hname, List.filter_cons_of_neg (by simp [hmark]), htaken,
          hfree, Draft.reportAll_reportAll]
        rfl

end Breadboard.Definition
