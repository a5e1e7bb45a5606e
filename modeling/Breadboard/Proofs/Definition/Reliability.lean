import Breadboard.Proofs.Definition.Headers
import Breadboard.Proofs.Definition.Tokens

/-!
# Readings do not fail

Whatever the text, and whatever has been done to the board that it is read onto, a reading never
meets a refusal that it is not prepared for.

* `lookedUp_of_mem_tokens`: the words of a text are in the table, and reserved words stand for what
  their tokens say.
* `Draft.Backed.reliable`: what a reader asks of the circuit and the probes is there, or is refused
  for one of the reasons that it reports.
* `readOnto_reliable`: the two for whole readings, and that no internal error is reported.
-/
namespace Breadboard.Definition

/-! ## Words -/

/-- What is looked up for a token is found. -/
structure Token.LookedUp (names : NameTable) (t : Token) : Prop where
  /-- A word has a number, and is the name with that number. -/
  word : (∀ m, t.kind ≠ .mark m) → t.kind ≠ .number → t.kind ≠ .endOfFile →
    ∃ id, t.id? = some id ∧ names.query? t.text = some id
  /-- A heading is that of a section. -/
  heading : ∀ {s id}, t.kind = .heading s id → Section.ofHeading? t.text = some s
  /-- A reserved word is that of a kind of device. -/
  keyword : ∀ {k id}, t.kind = .logic k id → DeviceKind.ofKeyword? t.text = some k

variable {names : NameTable} {opened : Bool} {t : Token}

theorem lookedUp_of_isKind {l : Lexeme} (htext : t.text = String.ofList l.chars)
    (h : l.IsKind names opened t.kind) : t.LookedUp names := by
  obtain ⟨kind, text, position⟩ := t
  dsimp only at htext h
  subst htext
  cases h with
  | @heading text s id hopened hword hquery =>
    refine ⟨fun _ _ _ => ⟨id, rfl, hquery⟩, fun hkind => ?_, nofun⟩
    cases hkind
    exact hword ▸ s.ofHeading?_heading
  | @logic text k id hheading hword hquery =>
    refine ⟨fun _ _ _ => ⟨id, rfl, hquery⟩, nofun, fun hkind => ?_⟩
    cases hkind
    exact hword ▸ k.ofKeyword?_keyword
  | @name text id hheading hkeyword hquery =>
    exact ⟨fun _ _ _ => ⟨id, rfl, hquery⟩, nofun, nofun⟩
  | number => exact ⟨fun _ hnumber _ => absurd rfl hnumber, nofun, nofun⟩
  | @mark m => exact ⟨fun hmark _ _ => absurd rfl (hmark m), nofun, nofun⟩

theorem Tokenizes.lookedUp {last : Option Token} {pieces : List (List Char × Lexeme)}
    {ts : List Token} (h : Tokenizes names last pieces ts) : ∀ t ∈ ts, t.LookedUp names := by
  induction h with
  | nil => exact fun t ht => absurd ht List.not_mem_nil
  | skip _ _ ih => exact ih
  | token htext _ hkind _ ih => exact List.forall_mem_cons.2 ⟨lookedUp_of_isKind htext hkind, ih⟩

theorem lookedUp_of_mem_tokens (names : NameTable) (source : List Char) :
    ∀ t ∈ (scan names source).tokens, t.LookedUp (scan names source).names := by
  have htokens : Tokenizes (scan names source).names none (preceded [] (lexemes source))
      (scan names source).tokens :=
    tokenizes_tokensFrom [] (lexemes source) rfl List.prefix_rfl
  exact htokens.lookedUp

/-! ## Refusals -/

variable {d : Draft}

/-- What a reader asks for is there, or is refused for one of the reasons that it reports. -/
structure Draft.Reliable (d : Draft) : Prop where
  /-- The device of a reference is in the circuit. -/
  device : ∀ {c r c'}, readReference d.declared c = .ok (r, c') → ∃ dev, d.device r = .ok dev
  /-- It still is when the line of a target has been read further. -/
  target : ∀ {c t c' d'}, readTarget d c = .ok (t, c') → d.Leads d' →
    ∃ dev, d'.device t.reference = .ok dev
  addDevice : ∀ {id kind parameter e}, d.circuit.addDevice id kind parameter = .error e →
    e = .present id ∨ (∃ value, parameter = some value ∧ e = .invalidParameter kind value) ∨
      parameter = none ∧ e = .missingParameter kind
  connect : ∀ {c t c' d' source index o pin e}, readTarget d c = .ok (t, c') → d.Leads d' →
    d'.output source = .ok o → t.pin index source = .ok pin →
      d'.circuit.connect o t.reference.device pin = .error e →
        e = .inputConnected t.reference.device pin
  probe : ∀ {r o e}, d.output r = .ok o → d.probes.add d.circuit o 0 = .error e →
    e = .present o.device o.pin

theorem Draft.Backed.reliable (hd : d.Backed) : d.Reliable where
  device hread := by
    obtain ⟨dev, hdev, -⟩ := exists_find?_of_readReference hd hread
    exact ⟨dev, device_eq hdev⟩
  target hread hleads := by
    obtain ⟨dev, hdev, -⟩ := (held_of_readTarget hd hread).leads hleads
    exact ⟨dev, device_eq hdev⟩
  addDevice := Circuit.addDevice_error
  connect hread hleads := connect_error ((held_of_readTarget hd hread).leads hleads)
  probe := add_error

/-! ## Whole readings -/

/-- What a plan leads to is found in sections and at headers. -/
theorem adds_inSection_foldl_apply {P : Fault → Prop} {limit : Nat} {acts : List Act}
    (hd : d.Backed) (hsection : ∀ f : Fault, f.InSection → P f)
    (hacts : ∀ i ∈ headerIssues acts, P i.fault) :
    d.Adds P (acts.foldl (Act.apply limit) d) := by
  induction acts generalizing d with
  | nil => exact .refl d
  | cons a acts ih =>
    cases a with
    | report i =>
      obtain ⟨hi, hacts⟩ := List.forall_mem_cons.1 hacts
      exact (Draft.Adds.report d hi).trans (ih (hd.leads (d.leads_report i)) hacts)
    | body s lines =>
      have hlines := (adds_readLines s limit limit lines d hd).mono hsection
      exact hlines.trans (ih (hd.leads (builds_readLines s limit limit lines d).leads) hacts)

/-- No issue that a plan leads to is an internal error. -/
theorem adds_foldl_apply {limit : Nat} {acts : List Act} (hd : d.Backed)
    (hacts : ∀ i ∈ headerIssues acts, i.ofHeader = true) :
    d.Adds (·.kind ≠ .internalError) (acts.foldl (Act.apply limit) d) := by
  refine adds_inSection_foldl_apply hd (fun f hf hkind => ?_) fun i hi hkind => ?_
  · exact Fault.inSection_iff.1 hf (by simp [hkind])
  · have hheader := hacts i hi
    simp [Issue.ofHeader, hkind] at hheader

/-- **Reliability.** Whatever the text and the board that it is read onto, what is looked up for its
words is found; while it is read, the circuit and the probes refuse nothing but what the reader
reports of the text; no header is left over when all sections have had their turn; and no internal
error is reported. -/
theorem readOnto_reliable (b : Board) (limit : Nat) (source : String) :
    let scanned := scan b.names source.toList
    let start : Draft := { circuit := b.circuit, probes := b.probes }
    (∀ t ∈ scanned.tokens, t.LookedUp scanned.names) ∧
    (∀ d, start.Leads d → d.Reliable) ∧
    readInOrder limit scanned.tokens scanned.finish start =
      .ok (readFile limit scanned.tokens scanned.finish start) ∧
    ∀ diagnostic ∈ (readOnto b limit source).diagnostics, diagnostic.kind ≠ .internalError := by
  intro scanned start
  have hstart : start.Backed := fun id hid => absurd hid List.not_mem_nil
  have hissues : start.Adds (·.kind ≠ .internalError)
      (readFile limit scanned.tokens scanned.finish start) := by
    rw [readFile_eq_plan limit scanned.tokens start rfl]
    exact adds_foldl_apply hstart (accounted_filePlan _ _ _).headers
  refine ⟨lookedUp_of_mem_tokens _ _, fun d hleads => (hstart.leads hleads).reliable,
    readInOrder_eq _ _ _ rfl, fun diagnostic hdiagnostic => ?_⟩
  obtain ⟨i, hi, rfl⟩ := List.mem_map.1 hdiagnostic
  rcases List.mem_append.1 hi with hstray | hfound
  · obtain ⟨stray, -, rfl⟩ := List.mem_map.1 hstray
    exact fun hkind => by cases hkind
  · obtain ⟨new, hnew, hkind⟩ := hissues
    refine hkind i ?_
    rw [List.nil_append] at hnew
    exact hnew ▸ hfound

end Breadboard.Definition
