import Breadboard.Proofs.Board.Operations
import Breadboard.Proofs.Definition.DiagnosticOrder
import Breadboard.Proofs.Definition.Scanning

/-!
# Where lines begin

Reading a text comes to its lines one after the other, each time with the draft that has been made
so far. `ComesOnto` says that it comes to a cursor with a draft when it is read onto a board. What
is true of all these places is what a statement about a line may rely on.

* `Reaches.leads`, `Reaches.among`: going from line to line, the draft only grows and the cursor
  stays within its section.
* `ComesOnto.proper`: the names that are ahead have the numbers of the table.
* `ComesOnto.leads`: what the draft holds at a line is there when the text has been read.
* `ComesOnto.ids_eq`: the devices that have been created are those that have been declared, if there
  were none before.
-/
namespace Breadboard.Definition

variable {s : Section} {n left passLimit limit : Nat} {c c' : Cursor} {d d' : Draft}
  {source : String}

/-! ## From line to line -/

/-- From one place in a section, where as many as `n` lines may be read, reading line by line comes
to another place, where as many as `left` may still be read. -/
inductive Reaches (s : Section) (n : Nat) (c : Cursor) (d : Draft) :
    Nat → Cursor → Draft → Prop where
  | refl : Reaches s n c d n c d
  | next {left : Nat} {c' : Cursor} {d' : Draft} :
      Reaches s n c d (left + 1) c' d' → c'.ahead ≠ [] →
      Reaches s n c d left (readLine s c' d').1 (readLine s c' d').2

namespace Reaches

theorem leads (h : Reaches s n c d left c' d') : d.Leads d' := by
  induction h with
  | refl => exact .refl d
  | next _ _ ih => exact ih.trans (builds_readLine s _ _).leads

/-- What is left to be read is read from there. -/
theorem readLines_eq (h : Reaches s n c d left c' d') (limit : Nat) :
    readLines s limit n c d = readLines s limit left c' d' := by
  induction h with
  | refl => rfl
  | next _ hahead ih => rw [ih, readLines, if_neg hahead]

theorem among {tokens : List Token} (h : Reaches s n c d left c' d') (hplaces : InPlaces tokens)
    (hc : c.Among tokens) : c'.Among tokens := by
  induction h with
  | refl => exact hc
  | @next _ c' d' _ _ ih =>
    exact ih.of_suffix (suffix_readLine s c' d') (finds_readLine s ih hplaces d').1

end Reaches

/-! ## Lines of a plan -/

/-- A piece adds its own lines to a plan, and no others. -/
theorem Plan.body_mem_act {reported : List Section} {q : Plan} {chunk : Chunk} {lines : Cursor}
    (h : .body s lines ∈ (q.act reported chunk).acts) :
    .body s lines ∈ q.acts ∨ chunk.heading? = some s ∧ lines = chunk.lines := by
  unfold Plan.act at h
  split at h
  · exact .inl (by simpa using h)
  · rename_i s' hs'
    have hunclosed : Act.body s lines ∉ if chunk.closed then []
        else [Act.report ((Fault.unclosedHeader s' chunk.third).on chunk.third)] := by
      split <;> simp
    dsimp only at h
    split at h
    · exact .inl (by simpa [hunclosed] using h)
    · simp only [List.mem_append, hunclosed, or_false, List.mem_map, List.mem_singleton,
        reduceCtorEq, and_false, exists_false, Act.body.injEq] at h
      obtain h | ⟨rfl, rfl⟩ := h
      · exact .inl h
      · exact .inr ⟨hs', rfl⟩

theorem Plan.body_mem_foldl_act {reported : List Section} {q : Plan} {pieces : List Chunk}
    {lines : Cursor} (h : .body s lines ∈ (pieces.foldl (Plan.act reported) q).acts)
    (hq : .body s lines ∉ q.acts) :
    ∃ chunk ∈ pieces, chunk.heading? = some s ∧ lines = chunk.lines := by
  induction pieces generalizing q with
  | nil => exact absurd h hq
  | cons chunk pieces ih =>
    by_cases hact : .body s lines ∈ (q.act reported chunk).acts
    · exact ⟨chunk, List.mem_cons_self, (Plan.body_mem_act hact).resolve_left hq⟩
    · obtain ⟨chunk', hchunk', hlines⟩ := ih h hact
      exact ⟨chunk', List.mem_cons_of_mem _ hchunk', hlines⟩

theorem Plan.body_mem_finish {reported : List Section} {q : Plan} {eof : Token} {lines : Cursor}
    (h : .body s lines ∈ q.finish reported eof) : .body s lines ∈ q.acts := by
  simpa [Plan.finish] using h

/-- The lines that a plan reads are those behind the headers of the pieces. -/
theorem exists_chunk_of_mem_filePlan {eof : Token} {before : List Token} {pieces : List Chunk}
    {lines : Cursor} (h : .body s lines ∈ filePlan eof before pieces) :
    ∃ chunk ∈ pieces, chunk.heading? = some s ∧ lines = chunk.lines := by
  cases before with
  | nil => exact Plan.body_mem_foldl_act (Plan.body_mem_finish h) List.not_mem_nil
  | cons t rest => exact Plan.body_mem_foldl_act (Plan.body_mem_finish h) (by simp)

theorem Plan.acts_isPrefix_foldl_act (reported : List Section) (pieces : List Chunk) (q : Plan) :
    q.acts <+: (pieces.foldl (Plan.act reported) q).acts := by
  induction pieces generalizing q with
  | nil => exact List.prefix_rfl
  | cons chunk pieces ih =>
    refine .trans ?_ (ih _)
    unfold Plan.act
    split
    · exact List.prefix_append _ _
    · dsimp only
      split <;> simp only [List.append_assoc] <;> exact List.prefix_append _ _

theorem Plan.acts_isPrefix_filePlan (eof : Token) (pieces later : List Chunk) :
    (pieces.foldl (Plan.act []) {}).acts <+: filePlan eof [] (pieces ++ later) := by
  have hfile : filePlan eof [] (pieces ++ later) =
      (later.foldl (Plan.act []) (pieces.foldl (Plan.act []) {})).finish [] eof := by
    rw [← List.foldl_append]
    rfl
  rw [hfile]
  exact (Plan.acts_isPrefix_foldl_act [] later _).trans (List.prefix_append _ _)

/-- The piece that is expected next has its lines read, and nothing is reported of its header. -/
theorem Plan.act_of_expected {q : Plan} {chunk : Chunk} (reported : List Section)
    (hheading : chunk.heading? = some s) (hclosed : chunk.closed = true)
    (hnext : q.next = s.rank) :
    q.act reported chunk = ⟨s.rank + 1, q.acts ++ [.body s chunk.lines]⟩ := by
  have hnone : q.missing reported s.rank = [] := by
    unfold Plan.missing Section.between
    simp only [List.filter_filter, List.filter_eq_nil_iff, Bool.and_eq_true, decide_eq_true_eq]
    omega
  simp [Plan.act, hheading, hclosed, hnext, hnone]

theorem leads_foldl_apply (limit : Nat) (acts : List Act) (d : Draft) :
    d.Leads (acts.foldl (Act.apply limit) d) := by
  induction acts generalizing d with
  | nil => exact .refl d
  | cons act acts ih =>
    refine .trans ?_ (ih _)
    cases act with
    | report i => exact d.leads_report i
    | body s lines => exact (builds_readLines s limit limit lines d).leads

/-! ## From the beginning of a text -/

theorem inPlaces_scan (names : NameTable) (source : String) :
    InPlaces ((scan names source.toList).tokens ++ [(scan names source.toList).finish]) :=
  (List.pairwise_map.1 (pairwise_places names source.toList)).imp le_of_lt

/-- The draft with which reading onto a board begins. -/
abbrev startOn (b : Board) : Draft := { circuit := b.circuit, probes := b.probes }

/-- Reading a text onto a board comes to a place in a section, where as many as `left` lines may
still be read. -/
def ComesOnto (b : Board) (limit : Nat) (source : String) (s : Section) (left : Nat) (c : Cursor)
    (d : Draft) : Prop :=
  let scanned := scan b.names source.toList
  let pieces := chunks scanned.finish scanned.tokens
  ∃ before lines after,
    filePlan scanned.finish pieces.1 pieces.2 = before ++ .body s lines :: after ∧
    Reaches s limit lines (before.foldl (Act.apply limit) (startOn b)) left c d

namespace ComesOnto

variable {b : Board}

/-- If a text begins with the header of the devices, reading comes to the lines behind it, with
nothing made so far. -/
theorem first {chunk : Chunk} {pieces : List Chunk}
    (hchunks : chunks (scan b.names source.toList).finish (scan b.names source.toList).tokens =
      ([], chunk :: pieces))
    (hheading : chunk.heading? = some .devices) (hclosed : chunk.closed = true) :
    ComesOnto b limit source .devices limit chunk.lines (startOn b) := by
  obtain ⟨after, hafter⟩ :=
    Plan.acts_isPrefix_filePlan (scan b.names source.toList).finish [chunk] pieces
  rw [List.foldl_cons, List.foldl_nil, Plan.act_of_expected (q := {}) [] hheading hclosed rfl]
    at hafter
  exact ⟨[], chunk.lines, after, by rw [hchunks]; exact hafter.symm, .refl⟩

/-- If the header of the connections is next, reading comes to the lines behind that with what has
been made of the devices. -/
theorem second {chunk chunk' : Chunk} {pieces : List Chunk}
    (hchunks : chunks (scan b.names source.toList).finish (scan b.names source.toList).tokens =
      ([], chunk :: chunk' :: pieces))
    (hheading : chunk.heading? = some .devices) (hclosed : chunk.closed = true)
    (hheading' : chunk'.heading? = some .conns) (hclosed' : chunk'.closed = true) :
    ComesOnto b limit source .conns limit chunk'.lines
      (readLines .devices limit limit chunk.lines (startOn b)) := by
  obtain ⟨after, hafter⟩ :=
    Plan.acts_isPrefix_filePlan (scan b.names source.toList).finish [chunk, chunk'] pieces
  rw [List.foldl_cons, List.foldl_cons, List.foldl_nil,
    Plan.act_of_expected (q := {}) [] hheading hclosed rfl,
    Plan.act_of_expected [] hheading' hclosed' (by exact rfl)] at hafter
  exact ⟨[.body .devices chunk.lines], chunk'.lines, after, by rw [hchunks]; exact hafter.symm,
    .refl⟩

theorem next (h : ComesOnto b limit source s (left + 1) c d) (hahead : c.ahead ≠ []) :
    ComesOnto b limit source s left (readLine s c d).1 (readLine s c d).2 := by
  obtain ⟨before, lines, after, hplan, hreaches⟩ := h
  exact ⟨before, lines, after, hplan, hreaches.next hahead⟩

theorem trans {left' : Nat} (h : ComesOnto b limit source s left c d)
    (h' : Reaches s left c d left' c' d') : ComesOnto b limit source s left' c' d' := by
  induction h' with
  | refl => exact h
  | next _ hahead ih => exact ih.next hahead

section
variable (h : ComesOnto b limit source s left c d)
include h

theorem among :
    c.Among ((scan b.names source.toList).tokens ++ [(scan b.names source.toList).finish]) := by
  obtain ⟨before, lines, after, hplan, hreaches⟩ := h
  have hplaces := inPlaces_scan b.names source
  refine hreaches.among hplaces ?_
  obtain ⟨chunk, hchunk, hheading, rfl⟩ :=
    exists_chunk_of_mem_filePlan (hplan ▸ List.mem_append_right before List.mem_cons_self)
  exact (finds_header [] (among_of_mem_chunks _ _ chunk hchunk) hplaces
    (cut_of_mem_chunks chunk hchunk) rfl hheading (by simp) (by simp) limit (startOn b)).1

/-- The names that are ahead have the numbers of the table. -/
theorem proper : c.Proper (scan b.names source.toList).names := by
  obtain ⟨hpiece, hstop⟩ := h.among
  refine ⟨fun s hs => ?_, fun t ht id hid => ?_⟩
  · rcases hstop with hstop | hstop <;> simp [Token.symbol?, hstop] at hs
    exact hs.symm
  · have hmem := hpiece.subset (List.mem_append_left _ ht)
    rcases List.mem_append.1 hmem with hmem | hmem
    · exact numbered_of_mem_tokensFrom _ _ _ t hmem id hid
    · rw [List.mem_singleton.1 hmem] at hid
      cases hid

/-- What has been read so far are changes that begin with the board. -/
theorem leads_start : (startOn b).Leads d := by
  obtain ⟨before, lines, after, hplan, hreaches⟩ := h
  exact (leads_foldl_apply limit before _).trans hreaches.leads

/-- What the draft holds at a line is there when the text has been read. -/
theorem leads : d.Leads (draftOnto b limit source) := by
  obtain ⟨before, lines, after, hplan, hreaches⟩ := h
  have hfile : draftOnto b limit source =
      (before ++ .body s lines :: after).foldl (Act.apply limit) (startOn b) := by
    rw [← hplan]
    exact readFile_eq_plan limit _ _ rfl
  rw [hfile, List.foldl_append, List.foldl_cons, Act.apply, hreaches.readLines_eq limit]
  exact (builds_readLines s limit left c d).leads.trans (leads_foldl_apply limit after _)

end

/-- On an empty board, the devices that have been created are those that have been declared. -/
theorem ids_eq (h : ComesOnto (.empty passLimit) limit source s left c d) :
    d.circuit.ids = d.declared := by
  obtain ⟨new, hids, hdeclared⟩ := h.leads_start.ids_eq
  exact hids.trans hdeclared.symm

end ComesOnto

end Breadboard.Definition
