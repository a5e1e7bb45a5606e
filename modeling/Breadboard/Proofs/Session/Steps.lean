import Breadboard.Proofs.Board.Reset
import Breadboard.Proofs.Definition.Elaboration
import Breadboard.Session

/-!
# Steps of a session

What can be done in a session after loading, one step after the other. A step that is refused, or
a run that is cut short, is a step like any other: it has an answer, and the session goes on.

* `leads_afterAll`: every sequence of steps comes down to changes of five kinds.
* `Leads.wellFormed`, `Leads.names_eq`, `Leads.bare_eq`: the board stays well-formed, and names and
  wiring stay what they are.
* `exists_tree_of_load`, `wellFormed_of_load`, `reset_eq_of_load`: a session that has just been
  loaded is on the board of a definition, it is well-formed, and it is as a reset leaves it.

`gatedRing` is a session with a clock, a switch and a gate, on which runs of more than one cycle are
cut short.
-/
namespace Breadboard.Session

inductive Step where
  | run (cycles : Nat)
  | execute
  | record
  | setSwitch (id : NameId) (closed : Bool)
  | toggle (name : String)
  | reset
  deriving DecidableEq, Repr

/-- What a step tells. -/
inductive Answer where
  | done
  | ran (result : Except Unrest Unit) (notice : Notice)
  | executed (result : Except Unrest Unit)
  | set (refusal : Option DeviceError)
  /-- Whether the signal is probed now. -/
  | toggled (result : Except ProbeError Bool)

/-- The answer to a step, and the session afterwards. A step that is refused changes nothing. -/
def take (s : Session) : Step → Answer × Session
  | .run cycles =>
    let (result, s') := s.run cycles
    (.ran result (runNotice cycles result s'), s')
  | .execute =>
    let (result, s') := s.execute
    (.executed result, s')
  | .record => (.done, s.record)
  | .setSwitch id closed =>
    match s.setSwitch id closed with
    | .ok s' => (.set none, s')
    | .error refusal => (.set (some refusal), s)
  | .toggle name =>
    match s.toggle name with
    | .ok (probed, s') => (.toggled (.ok probed), s')
    | .error refusal => (.toggled (.error refusal), s)
  | .reset => (.done, s.reset)

def after (s : Session) (step : Step) : Session := (s.take step).2

def afterAll (s : Session) (steps : List Step) : Session := steps.foldl after s

def answers (s : Session) : List Step → List Answer
  | [] => []
  | step :: steps => (s.take step).1 :: answers (s.after step) steps

/-! ## Loading -/

section
variable {s : Session} {limits : Limits} {source : String}

theorem eq_of_load (hload : (load limits source).2 = .ok s) :
    s = { board := (Definition.readOnto (.empty limits.passes) limits.lines source).board } := by
  unfold load at hload
  simp only at hload
  split at hload
  · exact (Except.ok.inj hload).symm
  · cases hload

/-- A session that has just been loaded is on the board of a well-formed definition. -/
theorem exists_tree_of_load (hload : (load limits source).2 = .ok s) :
    ∃ t : Definition.SyntaxTree, t.Derives source ∧ t.WellFormed limits.lines ∧
      s = { board := t.board limits.passes } := by
  have haccepted : (Definition.readOnto (.empty limits.passes) limits.lines source).accepted := by
    unfold load at hload
    simp only at hload
    split at hload
    · assumption
    · cases hload
  obtain ⟨t, ht, hwf⟩ := Definition.exists_tree_of_accepted haccepted
  refine ⟨t, ht, hwf, ?_⟩
  rw [eq_of_load hload, Definition.readOnto_of_derives _ ht hwf]
  rfl

theorem wellFormed_of_load (hload : (load limits source).2 = .ok s) : s.board.WellFormed := by
  rw [eq_of_load hload]
  exact Definition.wellFormed_readOnto (Board.wellFormed_empty _) _ _

theorem reset_reset (s : Session) : s.reset.reset = s.reset :=
  congrArg (fun board => ({ board } : Session)) (Board.reset_reset s.board)

/-- A session that has just been loaded is as a reset leaves it. -/
theorem reset_eq_of_load (hload : (load limits source).2 = .ok s) : s.reset = s := by
  rw [eq_of_load hload]
  exact congrArg (fun board => ({ board } : Session)) (Definition.reset_readOnto rfl _ _)

end

/-- A gate that drives one of its own inputs. It comes to rest only while a slow clock or a switch
holds another one low. -/
def gatedRingText : String :=
  "[devices] C = CLOCK(2); S = SWITCH(1); G = NAND(3);\n[conns] G = C, S, G;\n[monit] G;"

def gatedRing : Session where
  board :=
    { names := ⟨["devices", "C", "CLOCK", "S", "SWITCH", "G", "NAND", "conns", "monit"]⟩
      circuit :=
        { devices :=
            [⟨⟨1⟩, .clock { halfPeriod := 2 }⟩, ⟨⟨3⟩, .switch true⟩,
              ⟨⟨5⟩, .gate
                { kind := .nand
                  inputs := [some ⟨⟨1⟩, .out⟩, some ⟨⟨3⟩, .out⟩, some ⟨⟨5⟩, .out⟩] }⟩]
          passLimit := 0 }
      probes := ⟨[⟨⟨⟨5⟩, .out⟩, #[]⟩]⟩ }

theorem load_gatedRing : (load { passes := 0 } gatedRingText).2 = .ok gatedRing := by
  decide +kernel

/-! ## Runs -/

theorem run_succ_of_ok {s s' : Session} (h : s.execute = (.ok (), s')) (n : Nat) :
    s.run (n + 1) = s'.record.run n := by
  rw [run, h]

theorem run_succ_of_error {s s' : Session} {unrest : Unrest} (h : s.execute = (.error unrest, s'))
    (n : Nat) : s.run (n + 1) = (.error unrest, s') := by
  rw [run, h]

/-- What executing and recording preserve is preserved by a run, whether it is cut short or not. -/
theorem run_preserves {P : Session → Prop} {s : Session} (hexecute : ∀ s, P s → P s.execute.2)
    (hrecord : ∀ s, P s → P s.record) (n : Nat) (h : P s) : P (s.run n).2 := by
  induction n generalizing s with
  | zero => exact h
  | succ n ih =>
    have hnext : P s.execute.2 := hexecute s h
    rcases he : s.execute with ⟨unrest | ⟨⟩, e⟩ <;> rw [he] at hnext
    · rw [run_succ_of_error he]
      exact hnext
    · rw [run_succ_of_ok he]
      exact ih (hrecord e hnext)

/-- Sessions between which executing and recording keep a relation, with the same results, stay
related in a run. -/
theorem run_simulates {R : Session → Session → Prop} {s s' : Session}
    (hexecute : ∀ {s s'}, R s s' → s'.execute.1 = s.execute.1 ∧ R s.execute.2 s'.execute.2)
    (hrecord : ∀ {s s'}, R s s' → R s.record s'.record) (n : Nat) (h : R s s') :
    (s'.run n).1 = (s.run n).1 ∧ R (s.run n).2 (s'.run n).2 := by
  induction n generalizing s s' with
  | zero => exact ⟨rfl, h⟩
  | succ n ih =>
    obtain ⟨hresult, hnext⟩ := hexecute h
    rcases he : s.execute with ⟨unrest | ⟨⟩, e⟩ <;> rcases he' : s'.execute with ⟨u' | ⟨⟩, e'⟩ <;>
      rw [he, he'] at hresult hnext
    · rw [run_succ_of_error he, run_succ_of_error he']
      exact ⟨hresult, hnext⟩
    · cases hresult
    · cases hresult
    · rw [run_succ_of_ok he, run_succ_of_ok he']
      exact ih (hrecord hnext)

/-! ## Changes -/

/-- A change of a session. -/
inductive Change (s : Session) : Session → Prop where
  | execute : Change s s.execute.2
  | record : Change s s.record
  | setSwitch {id : NameId} {closed : Bool} {s' : Session} :
      s.setSwitch id closed = .ok s' → Change s s'
  | toggle {name : String} {probed : Bool} {s' : Session} :
      s.toggle name = .ok (probed, s') → Change s s'
  | reset : Change s s.reset

/-- Some changes lead from the first session to the second one. -/
def Leads : Session → Session → Prop := Relation.ReflTransGen Change

variable {s s' : Session}

theorem setSwitch_eq_ok_iff {id : NameId} {closed : Bool} :
    s.setSwitch id closed = .ok s' ↔ ∃ circuit,
      s.board.circuit.setSwitch id closed = .ok circuit ∧
        s' = { s with board := { s.board with circuit } } := by
  unfold Session.setSwitch
  cases s.board.circuit.setSwitch id closed <;> simp [Except.map, eq_comm]

theorem toggle_eq_ok_iff {name : String} {probed : Bool} :
    s.toggle name = .ok (probed, s') ↔ ∃ board,
      s.board.toggle name s.cycles = .ok (probed, board) ∧ s' = { s with board } := by
  unfold Session.toggle
  rcases s.board.toggle name s.cycles with _ | ⟨b, board⟩
  · simp [Except.map]
  · simp only [Except.map, Except.ok.injEq, Prod.mk.injEq]
    constructor
    · rintro ⟨rfl, rfl⟩
      exact ⟨board, ⟨rfl, rfl⟩, rfl⟩
    · rintro ⟨_, ⟨rfl, rfl⟩, rfl⟩
      exact ⟨rfl, rfl⟩

namespace Change

/-- What a change does to the board is done by operations on boards. -/
theorem exists_operations (h : Change s s') :
    ∃ ops : List Operation, s'.board = ops.foldl Operation.apply s.board := by
  cases h with
  | execute => exact ⟨[.cycle], rfl⟩
  | record => exact ⟨[.record], rfl⟩
  | @setSwitch id closed _ hset =>
    obtain ⟨circuit, hcircuit, rfl⟩ := setSwitch_eq_ok_iff.1 hset
    refine ⟨[.setSwitch id closed], ?_⟩
    simp only [List.foldl_cons, List.foldl_nil, Operation.apply, hcircuit]
  | @toggle name _ _ htoggle =>
    obtain ⟨board, hboard, rfl⟩ := toggle_eq_ok_iff.1 htoggle
    refine ⟨[.toggle name s.cycles], ?_⟩
    simp only [List.foldl_cons, List.foldl_nil, Operation.apply, hboard]
  | reset => exact ⟨[.reset, .clearProbes], rfl⟩

theorem wellFormed (h : Change s s') (hs : s.board.WellFormed) : s'.board.WellFormed := by
  obtain ⟨ops, hops⟩ := h.exists_operations
  rw [hops]
  exact hs.foldl_apply ops

theorem names_eq (h : Change s s') : s'.board.names = s.board.names := by
  cases h with
  | execute | record | reset => rfl
  | setSwitch hset =>
    obtain ⟨circuit, -, rfl⟩ := setSwitch_eq_ok_iff.1 hset
    rfl
  | toggle htoggle =>
    obtain ⟨board, hboard, rfl⟩ := toggle_eq_ok_iff.1 htoggle
    obtain ⟨t, -, -, ⟨-, -, rfl⟩ | ⟨-, -, probes, -, rfl⟩⟩ := Board.toggle_cases hboard <;> rfl

theorem ids_eq (h : Change s s') : s'.board.circuit.ids = s.board.circuit.ids := by
  cases h with
  | execute => exact (Circuit.sameShape_cycle _).1
  | record => rfl
  | setSwitch hset =>
    obtain ⟨circuit, hcircuit, rfl⟩ := setSwitch_eq_ok_iff.1 hset
    rw [(Circuit.setSwitch_eq_ok_iff.1 hcircuit).2]
    exact Circuit.ids_modify _ _ _
  | toggle htoggle =>
    obtain ⟨board, hboard, rfl⟩ := toggle_eq_ok_iff.1 htoggle
    obtain ⟨t, -, -, ⟨-, -, rfl⟩ | ⟨-, -, probes, -, rfl⟩⟩ := Board.toggle_cases hboard <;> rfl
  | reset => exact Circuit.ids_mapLogic _ _

theorem bare_eq (h : Change s s') (hs : s.board.WellFormed) :
    s'.board.circuit.bare = s.board.circuit.bare := by
  cases h with
  | execute => exact Circuit.bare_cycle _
  | record => rfl
  | setSwitch hset =>
    obtain ⟨circuit, hcircuit, rfl⟩ := setSwitch_eq_ok_iff.1 hset
    exact Circuit.bare_setSwitch hs.circuit.nodup hcircuit
  | toggle htoggle =>
    obtain ⟨board, hboard, rfl⟩ := toggle_eq_ok_iff.1 htoggle
    obtain ⟨t, -, -, ⟨-, -, rfl⟩ | ⟨-, -, probes, -, rfl⟩⟩ := Board.toggle_cases hboard <;> rfl
  | reset => exact Circuit.bare_reset _

end Change

namespace Leads

theorem trans {s'' : Session} (h : s.Leads s') (h' : s'.Leads s'') : s.Leads s'' :=
  Relation.ReflTransGen.trans h h'

/-- What every change preserves is preserved by all of them together. -/
theorem preserves {P : Session → Prop} (hP : ∀ {s s'}, Change s s' → P s → P s') (h : s.Leads s')
    (hs : P s) : P s' := by
  induction h with
  | refl => exact hs
  | tail _ hchange ih => exact hP hchange ih

theorem wellFormed (h : s.Leads s') (hs : s.board.WellFormed) : s'.board.WellFormed :=
  h.preserves (P := fun s => s.board.WellFormed) Change.wellFormed hs

theorem names_eq (h : s.Leads s') : s'.board.names = s.board.names :=
  h.preserves (P := fun s' => s'.board.names = s.board.names)
    (fun hchange hnames => hchange.names_eq.trans hnames) rfl

theorem ids_eq (h : s.Leads s') : s'.board.circuit.ids = s.board.circuit.ids :=
  h.preserves (P := fun s' => s'.board.circuit.ids = s.board.circuit.ids)
    (fun hchange hids => hchange.ids_eq.trans hids) rfl

theorem bare_eq (h : s.Leads s') (hs : s.board.WellFormed) :
    s'.board.circuit.bare = s.board.circuit.bare := by
  refine And.right (h.preserves (P := fun s' => s'.board.WellFormed ∧
    s'.board.circuit.bare = s.board.circuit.bare) (fun hchange ⟨hwf, hbare⟩ => ?_) ⟨hs, rfl⟩)
  exact ⟨hchange.wellFormed hwf, (hchange.bare_eq hwf).trans hbare⟩

end Leads

theorem leads_run (n : Nat) (s : Session) : s.Leads (s.run n).2 :=
  run_preserves (P := s.Leads) (fun _ h => h.trans (.single .execute))
    (fun _ h => h.trans (.single .record)) n .refl

theorem leads_after (s : Session) (step : Step) : s.Leads (s.after step) := by
  cases step with
  | run cycles => exact leads_run cycles s
  | execute => exact .single .execute
  | record => exact .single .record
  | setSwitch id closed =>
    simp only [after, take]
    split
    · rename_i hset
      exact .single (.setSwitch hset)
    · exact .refl
  | toggle name =>
    simp only [after, take]
    split
    · rename_i htoggle
      exact .single (.toggle htoggle)
    · exact .refl
  | reset => exact .single .reset

/-- Every sequence of steps is a run of changes. -/
theorem leads_afterAll (s : Session) (steps : List Step) : s.Leads (s.afterAll steps) := by
  induction steps generalizing s with
  | nil => exact .refl
  | cons step steps ih => exact (leads_after s step).trans (ih _)

end Breadboard.Session
