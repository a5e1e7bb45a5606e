import Breadboard.Proofs.Definition.Faults
import Breadboard.Proofs.Definition.InOrder
import Mathlib.Data.List.TakeWhile

/-!
# The headers of a file

What becomes of a file is decided by its headers alone. A `Plan` is made of them from left to right
and consists of acts: reports, and bodies that are read as the lines of a section.

* `Chunk.act`: what one piece adds to a plan.
* `readFile_eq_plan`: reading a file is carrying out its plan.
* `Plan.Sound.act`: in a plan, bodies stand in the order of the sections, and a section that has
  been passed over has been reported as missing once.
* `readFile_sequencing`: the two for whole files, and that no other issue is one of a header.
-/
namespace Breadboard.Definition

/-! ## Pieces -/

/-- The piece is one of a file: it goes from an opening bracket up to the next one, or to the end of
the file. -/
structure Chunk.Cut (finish : Token) (chunk : Chunk) : Prop where
  opening : chunk.opening.isMark .openSquare = true
  body : ∀ t ∈ chunk.body, t.isMark .openSquare = false
  stop : chunk.stop = finish ∨ chunk.stop.isMark .openSquare = true

theorem isMark_of_mem_fst_chunks {finish t : Token} {ts : List Token}
    (h : t ∈ (chunks finish ts).1) : t.isMark .openSquare = false := by
  rw [fst_chunks] at h
  simpa using List.mem_takeWhile_imp h

theorem cut_of_mem_chunks {finish : Token} {ts : List Token} :
    ∀ chunk ∈ (chunks finish ts).2, chunk.Cut finish := by
  induction ts with
  | nil => simp [chunks]
  | cons t ts ih =>
    simp only [chunks]
    split
    · rename_i hopen
      refine List.forall_mem_cons.2 ⟨⟨hopen, fun u hu => isMark_of_mem_fst_chunks hu, ?_⟩, ih⟩
      cases hmore : (chunks finish ts).2 with
      | nil => exact .inl rfl
      | cons chunk more =>
        rw [hmore] at ih
        exact .inr (ih chunk List.mem_cons_self).opening
    · exact ih

namespace Chunk

/-- The second token of the piece, or the one after it. -/
def second (chunk : Chunk) : Token := chunk.body.headD chunk.stop

/-- The third token of the piece, or the one after it. -/
def third (chunk : Chunk) : Token := chunk.body.tail.headD chunk.stop

/-- The section whose heading stands behind the bracket. -/
def heading? (chunk : Chunk) : Option Section :=
  match chunk.second.kind with
  | .heading s _ => some s
  | _ => none

def closed (chunk : Chunk) : Bool := chunk.third.isMark .closeSquare

def lines (chunk : Chunk) : Cursor :=
  if chunk.closed then ⟨chunk.third, chunk.body.drop 2, chunk.stop⟩
  else ⟨chunk.second, chunk.body.drop 1, chunk.stop⟩

end Chunk

/-! ## Plans -/

/-- What is done with a part of a file. -/
inductive Act where
  | report (i : Issue)
  /-- Reads the lines of a section. -/
  | body (s : Section) (lines : Cursor)

namespace Act

def apply (limit : Nat) (d : Draft) : Act → Draft
  | report i => d.report i
  | body s lines => readLines s limit limit lines d

def issue? : Act → Option Issue
  | report i => some i
  | body _ _ => none

def section? : Act → Option Section
  | report _ => none
  | body s _ => some s

end Act

/-- The sections from one place in the order up to another one. -/
def Section.between (e n : Nat) : List Section := all.filter fun s => e ≤ s.rank ∧ s.rank < n

/-- What is done with a file up to some place. -/
structure Plan where
  /-- The place in the order of the section that is expected next. -/
  next : Nat := 0
  acts : List Act := []

namespace Plan

/-- The sections from the next one up to a place in the order, but for those that have been reported
already. -/
def missing (reported : List Section) (p : Plan) (n : Nat) : List Section :=
  (Section.between p.next n).filter (!reported.contains ·)

/-- Adds what one piece of a file makes of it: a section that is passed over is missing; one that is
passed already is out of place; a piece that is no section is ignored. -/
def act (reported : List Section) (p : Plan) (chunk : Chunk) : Plan :=
  match chunk.heading? with
  | none => ⟨p.next, p.acts ++ [.report ((Fault.expectedHeading chunk.second).on chunk.second)]⟩
  | some s =>
    let unclosed : List Act :=
      if chunk.closed then []
      else [.report ((Fault.unclosedHeader s chunk.third).on chunk.third)]
    if s.rank < p.next then
      ⟨p.next, p.acts ++ unclosed ++ [.report ((Fault.misplacedSection s).on chunk.second)]⟩
    else
      ⟨s.rank + 1, p.acts ++ unclosed ++
        (p.missing reported s.rank).map
          (fun m => .report ((Fault.missingSection m (some s)).on chunk.second)) ++
        [.body s chunk.lines]⟩

/-- Adds what the end of the file makes of it: what is still expected is missing. -/
def finish (reported : List Section) (p : Plan) (eof : Token) : List Act :=
  p.acts ++ (p.missing reported Section.all.length).map
    fun m => .report ((Fault.missingSection m none).on eof)

end Plan

/-- The plan of a file. What stands before its first bracket is taken for the header of the first
section, which is then reported as missing. -/
def filePlan (eof : Token) (before : List Token) (pieces : List Chunk) : List Act :=
  match before with
  | [] => (pieces.foldl (Plan.act []) {}).finish [] eof
  | t :: _ =>
    let opening : Plan := ⟨0, [.report ((Fault.expectedSection .devices t).on t)]⟩
    (pieces.foldl (Plan.act [.devices]) opening).finish [.devices] eof

variable {limit : Nat} {reported : List Section} {s : Section} {chunk : Chunk} {eof : Token}
  {p : Progress} {q : Plan} {d : Draft} {e : Nat}

/-! ## Sections in order -/

theorem Section.rank_lt (s : Section) : s.rank < all.length := by
  cases s <;> decide

theorem Section.mem_between_iff {n : Nat} : s ∈ between e n ↔ e ≤ s.rank ∧ s.rank < n := by
  have hall : s ∈ all := by cases s <;> decide
  simp [between, hall]

/-- Up to a section that is still to come, the sections to come are those before it. -/
theorem Section.split_between (h : e ≤ s.rank) :
    (between e all.length).takeWhile (· != s) = between e s.rank ∧
      ((between e all.length).dropWhile (· != s)).tail = between (s.rank + 1) all.length := by
  have hall : ∀ s ∈ all, ∀ e ∈ List.range all.length, e ≤ s.rank →
      (between e all.length).takeWhile (· != s) = between e s.rank ∧
        ((between e all.length).dropWhile (· != s)).tail = between (s.rank + 1) all.length := by
    decide
  exact hall s (by cases s <;> decide) e (List.mem_range.2 (h.trans_lt s.rank_lt)) h

/-! ## Carrying a plan out -/

/-- The kind of the token after a piece is neither a heading nor that of a closing bracket. -/
theorem Chunk.Cut.kind_stop (h : chunk.Cut eof) (heof : eof.kind = .endOfFile) :
    chunk.stop.kind = .endOfFile ∨ chunk.stop.kind = .mark .openSquare := by
  rcases h.stop with hstop | hstop
  · exact .inl (hstop ▸ heof)
  · exact .inr (by simpa [Token.isMark] using hstop)

theorem Chunk.heading?_eq_some_iff :
    chunk.heading? = some s ↔ ∃ id, chunk.cursor.current.kind = .heading s id := by
  change _ ↔ ∃ id, chunk.second.kind = .heading s id
  unfold heading?
  cases chunk.second.kind <;> simp [eq_comm]

/-- Behind the heading of a piece come its closing bracket and its lines. -/
theorem Chunk.Cut.readCloseSquare_eq (h : chunk.Cut eof) (heof : eof.kind = .endOfFile)
    (hs : chunk.heading? = some s) (d : Draft) :
    readCloseSquare s chunk.cursor.advance d =
      (chunk.lines, if chunk.closed then d
        else d.report ((Fault.unclosedHeader s chunk.third).on chunk.third)) := by
  obtain ⟨id, hkind⟩ := Chunk.heading?_eq_some_iff.1 hs
  have hstop := h.kind_stop heof
  cases hbody : chunk.body with
  | nil =>
    have hcurrent : chunk.cursor.current = chunk.stop := by simp [Cursor.current, cursor, hbody]
    rw [hcurrent] at hkind
    rcases hstop with hstop | hstop <;> simp [hstop] at hkind
  | cons t rest =>
    have hadvance : chunk.cursor.advance = ⟨t, rest, chunk.stop⟩ :=
      Cursor.advance_cons (c := chunk.cursor) hbody
    have hsecond : chunk.second = t := by simp [second, hbody]
    have hthird : (Cursor.mk t rest chunk.stop).current = chunk.third := by
      simp [third, hbody, Cursor.current]
    have hat : (Cursor.mk t rest chunk.stop).isAt .closeSquare = chunk.closed := by
      rw [Cursor.isAt, hthird, closed]
    rw [hadvance, readCloseSquare, hat, hthird]
    by_cases hclosed : chunk.closed = true
    · rw [if_pos hclosed, if_pos hclosed, lines, if_pos hclosed]
      cases rest with
      | nil =>
        rw [closed, ← hthird, Cursor.current, List.headD_nil, Token.isMark] at hclosed
        rcases hstop with hstop | hstop <;> simp [hstop] at hclosed
      | cons u rest => simp [Cursor.advance, hbody, ← hthird, Cursor.current]
    · rw [if_neg hclosed, if_neg hclosed, lines, if_neg hclosed]
      simp [hbody, hsecond]

/-- Where a section is entered that is not passed yet, those before it are missing; where it is
passed, it is out of place. -/
theorem enter_between {heading : Token} {body : Cursor} :
    Progress.enter ⟨Section.between e Section.all.length, d⟩ reported limit s heading body =
      if s.rank < e then
        ⟨Section.between e Section.all.length,
          d.report ((Fault.misplacedSection s).on heading)⟩
      else
        ⟨Section.between (s.rank + 1) Section.all.length,
          readLines s limit limit body
            (((Section.between e s.rank).filter (!reported.contains ·)).foldl
              (fun d m => d.report ((Fault.missingSection m (some s)).on heading)) d)⟩ := by
  by_cases hpassed : s.rank < e
  · have hs : s ∉ Section.between e Section.all.length := by
      rw [Section.mem_between_iff]
      omega
    rw [if_pos hpassed, enter_misplaced hs]
  · have hs : s ∈ Section.between e Section.all.length :=
      Section.mem_between_iff.2 ⟨Nat.le_of_not_lt hpassed, s.rank_lt⟩
    obtain ⟨htake, hdrop⟩ := Section.split_between (Nat.le_of_not_lt hpassed)
    rw [if_neg hpassed, Progress.enter, if_pos (List.contains_iff_mem.2 hs), htake, hdrop]

/-- The plan says where a reading has come to. -/
structure Plan.Carries (limit : Nat) (d : Draft) (q : Plan) (p : Progress) : Prop where
  due : p.due = Section.between q.next Section.all.length
  draft : p.draft = q.acts.foldl (Act.apply limit) d

theorem foldl_apply_report {α : Type} (issue : α → Issue) (as : List α) (d : Draft) :
    (as.map fun a => Act.report (issue a)).foldl (Act.apply limit) d =
      as.foldl (fun d a => d.report (issue a)) d := by
  rw [List.foldl_map]
  rfl

/-- A piece of a file does what it adds to the plan. -/
theorem Plan.Carries.readChunk (h : q.Carries limit d p) (hchunk : chunk.Cut eof)
    (heof : eof.kind = .endOfFile) :
    (q.act reported chunk).Carries limit d (p.readChunk reported limit chunk) := by
  obtain ⟨due, draft⟩ := p
  obtain ⟨hdue, hdraft⟩ := h
  dsimp only at hdue hdraft
  cases hs : chunk.heading? with
  | none =>
    have hmalformed : ∀ s id, chunk.cursor.current.kind = .heading s id → False := by
      intro s id hkind
      rw [Chunk.heading?_eq_some_iff.2 ⟨id, hkind⟩] at hs
      cases hs
    rw [readChunk_of_malformed hmalformed]
    simp only [act, hs]
    exact ⟨hdue, by rw [List.foldl_append, ← hdraft]; rfl⟩
  | some s =>
    obtain ⟨id, hkind⟩ := Chunk.heading?_eq_some_iff.1 hs
    rw [readChunk_of_heading hkind, hchunk.readCloseSquare_eq heof hs, hdue, enter_between]
    have hunclosed : (if chunk.closed then draft
          else draft.report ((Fault.unclosedHeader s chunk.third).on chunk.third)) =
        (q.acts ++ if chunk.closed then []
          else [Act.report ((Fault.unclosedHeader s chunk.third).on chunk.third)]).foldl
            (Act.apply limit) d := by
      rw [List.foldl_append, ← hdraft]
      split <;> rfl
    simp only [act, hs]
    split
    · refine ⟨rfl, ?_⟩
      rw [List.foldl_append, ← hunclosed]
      rfl
    · refine ⟨rfl, ?_⟩
      rw [List.foldl_append, List.foldl_append, ← hunclosed, foldl_apply_report]
      rfl

theorem Plan.Carries.foldl_readChunk {pieces : List Chunk} (h : q.Carries limit d p)
    (hpieces : ∀ chunk ∈ pieces, chunk.Cut eof) (heof : eof.kind = .endOfFile) :
    (pieces.foldl (Plan.act reported) q).Carries limit d
      (pieces.foldl (Progress.readChunk reported limit) p) := by
  induction pieces generalizing p q with
  | nil => exact h
  | cons chunk pieces ih =>
    obtain ⟨hchunk, hpieces⟩ := List.forall_mem_cons.1 hpieces
    exact ih (h.readChunk hchunk heof) hpieces

theorem Plan.Carries.close (h : q.Carries limit d p) (eof : Token) :
    p.close reported eof = (q.finish reported eof).foldl (Act.apply limit) d := by
  rw [Plan.finish, List.foldl_append, ← h.draft, foldl_apply_report, Plan.missing, ← h.due]
  rfl

/-- Reading a file is carrying out its plan. -/
theorem readFile_eq_plan (limit : Nat) (tokens : List Token) (d : Draft)
    (heof : eof.kind = .endOfFile) :
    readFile limit tokens eof d =
      (filePlan eof (chunks eof tokens).1 (chunks eof tokens).2).foldl (Act.apply limit) d := by
  have hpieces : ∀ chunk ∈ (chunks eof tokens).2, chunk.Cut eof := cut_of_mem_chunks
  rw [readFile]
  generalize chunks eof tokens = x at hpieces ⊢
  obtain ⟨before, pieces⟩ := x
  cases before with
  | nil =>
    have hstart : Plan.Carries limit d {} ⟨Section.all, d⟩ := ⟨rfl, rfl⟩
    exact (hstart.foldl_readChunk hpieces heof).close eof
  | cons t rest =>
    have hstart : Plan.Carries limit d
        ⟨0, [.report ((Fault.expectedSection .devices t).on t)]⟩
        ⟨Section.all, d.report ((Fault.expectedSection .devices t).on t)⟩ := ⟨rfl, rfl⟩
    exact (hstart.foldl_readChunk hpieces heof).close eof

/-! ## What a plan does -/

/-- The sections whose lines are read. -/
def parsed (acts : List Act) : List Section := acts.filterMap Act.section?

/-- The issues that are reported of headers. -/
def headerIssues (acts : List Act) : List Issue := acts.filterMap Act.issue?

/-- The issue is one of a header. -/
def Issue.ofHeader (i : Issue) : Bool :=
  i.fault.kind = .invalidHeader ∨ i.fault.kind = .missingHeader

/-- The issue says that a section is missing. -/
def Issue.misses (s : Section) (i : Issue) : Bool :=
  match i.fault with
  | .expectedSection m _ | .missingSection m _ => m == s
  | _ => false

section lists

variable (acts acts' : List Act)

@[simp]
theorem parsed_append : parsed (acts ++ acts') = parsed acts ++ parsed acts' :=
  List.filterMap_append

@[simp]
theorem headerIssues_append : headerIssues (acts ++ acts') = headerIssues acts ++ headerIssues acts' :=
  List.filterMap_append

end lists

@[simp]
theorem parsed_reports {α : Type} (issue : α → Issue) (as : List α) :
    parsed (as.map fun a => .report (issue a)) = [] := by
  simp [parsed, Act.section?]

@[simp]
theorem headerIssues_reports {α : Type} (issue : α → Issue) (as : List α) :
    headerIssues (as.map fun a => .report (issue a)) = as.map issue := by
  simp [headerIssues, Act.issue?, List.filterMap_map, Function.comp_def]

theorem Section.nodup_between (e n : Nat) : (between e n).Nodup :=
  List.Nodup.filter _ (by decide)

theorem Section.between_sublist {e n n' : Nat} (h : n ≤ n') : (between e n).Sublist (between e n') :=
  List.monotone_filter_right _ fun s hs => by
    simp only [decide_eq_true_eq] at hs ⊢
    omega

theorem Section.between_succ_rank (s : Section) : between 0 (s.rank + 1) = between 0 s.rank ++ [s] := by
  cases s <;> rfl

/-- Of the sections that are passed over, each is reported once. -/
theorem countP_missing {n : Nat} {issue : Section → Issue}
    (hissue : ∀ m, (issue m).misses s = (m == s)) :
    ((q.missing reported n).map issue).countP (·.misses s) =
      if (q.next ≤ s.rank ∧ s.rank < n) ∧ s ∉ reported then 1 else 0 := by
  have hnodup : (q.missing reported n).Nodup := (Section.nodup_between _ _).filter _
  rw [List.countP_map]
  simp only [Function.comp_def, hissue]
  change (q.missing reported n).count s = _
  rw [hnodup.count]
  simp [Plan.missing, Section.mem_between_iff]

/-- In a plan, bodies stand in the order of the sections, and what has been passed over has been
reported as missing once. -/
structure Plan.Sound (reported : List Section) (q : Plan) : Prop where
  parsed : (parsed q.acts).Sublist (Section.between 0 q.next)
  headers : ∀ i ∈ headerIssues q.acts, i.ofHeader = true
  missing : ∀ s, (headerIssues q.acts).countP (·.misses s) =
    if q.next ≤ s.rank then if s ∈ reported then 1 else 0
    else if s ∈ Definition.parsed q.acts ∧ s ∉ reported then 0 else 1

theorem Plan.Sound.rank_lt (h : q.Sound reported) (hs : s ∈ Definition.parsed q.acts) :
    s.rank < q.next :=
  (Section.mem_between_iff.1 (h.parsed.subset hs)).2

theorem Plan.Sound.report {acts : List Act} (h : q.Sound reported)
    (hparsed : Definition.parsed acts = []) (hheaders : ∀ i ∈ headerIssues acts, i.ofHeader = true)
    (hmissing : ∀ s, (headerIssues acts).countP (·.misses s) = 0) :
    Plan.Sound reported ⟨q.next, q.acts ++ acts⟩ where
  parsed := by
    rw [parsed_append, hparsed, List.append_nil]
    exact h.parsed
  headers i hi := by
    rw [headerIssues_append, List.mem_append] at hi
    exact hi.elim (h.headers i) (hheaders i)
  missing s := by
    rw [headerIssues_append, List.countP_append, hmissing, Nat.add_zero, h.missing, parsed_append,
      hparsed, List.append_nil]

/-- A plan stays sound when a section is passed to that is not passed yet. -/
theorem Plan.Sound.body {heading : Token} {lines : Cursor} (h : q.Sound reported)
    (hs : q.next ≤ s.rank) :
    Plan.Sound reported ⟨s.rank + 1, q.acts ++
      (q.missing reported s.rank).map
        (fun m => .report ((Fault.missingSection m (some s)).on heading)) ++ [.body s lines]⟩ := by
  set passed : List Act := (q.missing reported s.rank).map
    (fun m => .report ((Fault.missingSection m (some s)).on heading)) with hpassed
  have hparsed : Definition.parsed (q.acts ++ passed ++ [.body s lines]) =
      Definition.parsed q.acts ++ [s] := by
    rw [parsed_append, parsed_append, hpassed, parsed_reports, List.append_nil]
    rfl
  have hissues : headerIssues (q.acts ++ passed ++ [.body s lines]) =
      headerIssues q.acts ++ (q.missing reported s.rank).map
        (fun m => (Fault.missingSection m (some s)).on heading) := by
    rw [headerIssues_append, headerIssues_append, hpassed, headerIssues_reports]
    exact List.append_nil _
  refine ⟨?_, fun i hi => ?_, fun m => ?_⟩
  · rw [hparsed, Section.between_succ_rank]
    exact (h.parsed.trans (Section.between_sublist hs)).append (List.Sublist.refl [s])
  · rw [hissues, List.mem_append, List.mem_map] at hi
    rcases hi with hi | ⟨m, -, rfl⟩
    · exact h.headers i hi
    · rfl
  · rw [hissues, hparsed, List.countP_append, h.missing, countP_missing fun _ => rfl]
    by_cases hms : m = s
    · subst hms
      simp [hs]
    · have hmem : m ∈ Definition.parsed q.acts ++ [s] ↔ m ∈ Definition.parsed q.acts := by
        simp [hms]
      have hrank : m.rank ≠ s.rank := fun hrank => hms (Section.rank_injective hrank)
      simp only [hmem]
      -- behind the section, between the old place and the section, or before the old place
      rcases Nat.lt_or_ge s.rank m.rank with hbehind | hbefore
      · have hnext : q.next ≤ m.rank := hs.trans hbehind.le
        have hsucc : s.rank + 1 ≤ m.rank := hbehind
        simp [hnext, hsucc, hbehind.not_gt]
      · have hlt : m.rank < s.rank := Nat.lt_of_le_of_ne hbefore hrank
        have hsucc : ¬s.rank + 1 ≤ m.rank := by omega
        by_cases hnext : q.next ≤ m.rank
        · have hnot : m ∉ Definition.parsed q.acts := fun hm => absurd (h.rank_lt hm) (by omega)
          by_cases hreported : m ∈ reported <;> simp [hnext, hlt, hnot, hreported, hsucc]
        · simp [hnext, hsucc]

/-- Every piece of a file keeps a plan sound. -/
theorem Plan.Sound.act (h : q.Sound reported) (chunk : Chunk) :
    (q.act reported chunk).Sound reported := by
  unfold Plan.act
  split
  · exact h.report rfl (by simp [headerIssues, Act.issue?, Issue.ofHeader, Fault.on, Fault.kind])
      fun s => rfl
  · rename_i s hs
    set unclosed : List Act :=
      if chunk.closed then []
      else [.report ((Fault.unclosedHeader s chunk.third).on chunk.third)] with hunclosed
    have hclosed : Plan.Sound reported ⟨q.next, q.acts ++ unclosed⟩ := by
      refine h.report ?_ (fun i hi => ?_) (fun m => ?_)
      · rw [hunclosed]
        split <;> rfl
      · rw [hunclosed] at hi
        split at hi
        · cases hi
        · rw [List.mem_singleton.1 hi]
          rfl
      · rw [hunclosed]
        split <;> rfl
    dsimp only
    split
    · exact hclosed.report rfl (by simp [headerIssues, Act.issue?, Issue.ofHeader, Fault.on,
        Fault.kind]) fun s => rfl
    · rename_i hnext
      exact hclosed.body (Nat.le_of_not_lt hnext)

theorem Plan.Sound.foldl_act (h : q.Sound reported) (pieces : List Chunk) :
    (pieces.foldl (Plan.act reported) q).Sound reported := by
  induction pieces generalizing q with
  | nil => exact h
  | cons chunk pieces ih => exact ih (h.act chunk)

/-- What a whole plan does about headers. -/
structure Accounted (reported : List Section) (acts : List Act) : Prop where
  parsed : (parsed acts).Sublist Section.all
  headers : ∀ i ∈ headerIssues acts, i.ofHeader = true
  missing : ∀ s, (headerIssues acts).countP (·.misses s) =
    if s ∈ Definition.parsed acts ∧ s ∉ reported then 0 else 1

theorem Plan.Sound.finish (h : q.Sound reported) (eof : Token) :
    Accounted reported (q.finish reported eof) := by
  have hparsed : Definition.parsed (q.finish reported eof) = Definition.parsed q.acts := by
    rw [Plan.finish, parsed_append, parsed_reports, List.append_nil]
  have hissues : headerIssues (q.finish reported eof) =
      headerIssues q.acts ++ (q.missing reported Section.all.length).map
        (fun m => (Fault.missingSection m none).on eof) := by
    rw [Plan.finish, headerIssues_append, headerIssues_reports]
  refine ⟨?_, fun i hi => ?_, fun s => ?_⟩
  · rw [hparsed]
    exact h.parsed.trans List.filter_sublist
  · rw [hissues, List.mem_append, List.mem_map] at hi
    rcases hi with hi | ⟨m, -, rfl⟩
    · exact h.headers i hi
    · rfl
  · rw [hissues, hparsed, List.countP_append, h.missing, countP_missing fun _ => rfl]
    by_cases hdue : q.next ≤ s.rank
    · have hnot : s ∉ Definition.parsed q.acts := fun hs => absurd (h.rank_lt hs) (by omega)
      by_cases hreported : s ∈ reported <;> simp [hdue, hnot, hreported, s.rank_lt]
    · simp [hdue]

theorem accounted_filePlan (eof : Token) (before : List Token) (pieces : List Chunk) :
    Accounted (if before = [] then [] else [.devices]) (filePlan eof before pieces) := by
  cases before with
  | nil =>
    have hstart : Plan.Sound [] {} :=
      ⟨List.nil_sublist _, (fun i hi => by cases hi), fun s => by simp [headerIssues]⟩
    exact (hstart.foldl_act pieces).finish eof
  | cons t rest =>
    have hstart : Plan.Sound [.devices]
        ⟨0, [.report ((Fault.expectedSection .devices t).on t)]⟩ := by
      refine ⟨List.nil_sublist _, fun i hi => ?_, fun s => ?_⟩
      · rw [List.mem_singleton.1 hi]
        rfl
      · cases s <;> rfl
    exact (hstart.foldl_act pieces).finish eof

/-! ## Issues of headers -/

theorem Fault.InSection.ofHeader_eq_false {i : Issue} (h : i.fault.InSection) :
    i.ofHeader = false := by
  have hkind := Fault.inSection_iff.1 h
  simp only [List.mem_cons, not_or] at hkind
  simp [Issue.ofHeader, hkind]

/-- Of the issues that a plan leads to, those that it reports are the ones of headers. -/
theorem filter_ofHeader_foldl_apply {acts : List Act} (hd : d.Backed)
    (hacts : ∀ i ∈ headerIssues acts, i.ofHeader = true) :
    (acts.foldl (Act.apply limit) d).issues.filter Issue.ofHeader =
      d.issues.filter Issue.ofHeader ++ headerIssues acts := by
  induction acts generalizing d with
  | nil => exact (List.append_nil _).symm
  | cons a acts ih =>
    cases a with
    | report i =>
      obtain ⟨hi, hacts⟩ := List.forall_mem_cons.1 hacts
      have hrest := ih (hd.leads (d.leads_report i)) hacts
      have hreport : (d.report i).issues.filter Issue.ofHeader =
          d.issues.filter Issue.ofHeader ++ [i] := by
        simp [Draft.report, hi]
      rw [hreport, List.append_assoc] at hrest
      exact hrest
    | body s lines =>
      obtain ⟨new, hnew, hin⟩ := adds_readLines s limit limit lines d hd
      have hnone : new.filter Issue.ofHeader = [] :=
        List.filter_eq_nil_iff.2 fun i hi => by simp [(hin i hi).ofHeader_eq_false]
      have hrest := ih (hd.leads (builds_readLines s limit limit lines d).leads) hacts
      rw [hnew, List.filter_append, hnone, List.append_nil] at hrest
      exact hrest

theorem Issue.ofHeader_of_misses {i : Issue} (h : i.misses s = true) : i.ofHeader = true := by
  obtain ⟨fault, position⟩ := i
  cases fault <;> first | rfl | cases h

/-- **Sequencing.** A file is cut before each opening square bracket, and its plan is made of the
headers of the pieces, from left to right. Reading the file is carrying out the plan, also when it
is read in order with one token of lookahead. The issues of headers that are found are those of the
plan; the lines of a section are read at most once, in the order of the sections; and a section is
reported as missing once if its lines are not read. If they are read, that is not reported, unless
it is the first section and something stands before the first bracket. -/
theorem readFile_sequencing (limit : Nat) (tokens : List Token) (position : Position)
    (circuit : Circuit) (probes : Probes) :
    let eof : Token := ⟨.endOfFile, "", position⟩
    let start : Draft := { circuit, probes }
    let before := (chunks eof tokens).1
    let pieces := (chunks eof tokens).2
    let acts := filePlan eof before pieces
    let result := readFile limit tokens eof start
    (tokens = before ++ pieces.flatMap Chunk.tokens ∧
      (∀ t ∈ before, t.isMark .openSquare = false) ∧ ∀ chunk ∈ pieces, chunk.Cut eof) ∧
    result = acts.foldl (Act.apply limit) start ∧
    readInOrder limit tokens eof start = .ok result ∧
    result.issues.filter Issue.ofHeader = headerIssues acts ∧
    (parsed acts).Sublist Section.all ∧
    ∀ s, result.issues.countP (·.misses s) =
      if s ∈ parsed acts ∧ ¬(s = .devices ∧ before ≠ []) then 0 else 1 := by
  intro eof start before pieces acts result
  have hplan : result = acts.foldl (Act.apply limit) start :=
    readFile_eq_plan limit tokens start rfl
  have haccounted : Accounted _ acts := accounted_filePlan eof before pieces
  have hheaders : result.issues.filter Issue.ofHeader = headerIssues acts := by
    rw [hplan, filter_ofHeader_foldl_apply (fun id hid => absurd hid List.not_mem_nil)
      haccounted.headers]
    rfl
  have hcount : ∀ s, result.issues.countP (·.misses s) =
      (headerIssues acts).countP (·.misses s) := by
    intro s
    rw [← hheaders, List.countP_filter]
    refine List.countP_congr fun i _ => ?_
    rw [Bool.and_eq_true]
    exact ⟨fun h => ⟨h, Issue.ofHeader_of_misses h⟩, fun h => h.1⟩
  refine ⟨⟨(chunks_flatMap_tokens eof tokens).symm, fun t => isMark_of_mem_fst_chunks,
    cut_of_mem_chunks⟩, hplan, readInOrder_eq limit tokens start rfl, hheaders, haccounted.parsed,
    fun s => ?_⟩
  rw [hcount, haccounted.missing]
  by_cases hbefore : before = [] <;> simp [hbefore]

end Breadboard.Definition
