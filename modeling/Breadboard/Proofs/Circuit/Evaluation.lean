import Breadboard.Proofs.Circuit.Latching

/-!
# Evaluation of gates

Where gates have no loop among themselves, `Circuit.eval` evaluates outputs recursively from
switch positions, clock outputs and given stored bits. It mentions neither passes nor the
outputs that gates have at present.

* `eval_congr`: the evaluation depends only on what `Logic.fixed` keeps.
* `read_eq_eval`: a settled circuit reads at every input what the evaluation gives.
-/
namespace Breadboard

/-! ## What settling and latching keep -/

namespace Logic

/-- The part without what settling changes: the outputs of gates and stored bits. -/
def kept : Logic → Logic
  | gate g => gate { g with output := false }
  | dtype ff => dtype { ff with stored := false }
  | l => l

/-- The part without what a cycle changes after the clocks have ticked. -/
def fixed : Logic → Logic
  | gate g => gate { g with output := false }
  | dtype ff => dtype { ff with stored := false, lastClk := false }
  | l => l

/-- The part without the output of a gate. -/
def essential : Logic → Logic
  | gate g => gate { g with output := false }
  | l => l

/-- The flip-flop that the part is, if it is one. -/
def flipFlop? : Logic → Option FlipFlop
  | dtype ff => some ff
  | _ => none

theorem flipFlop?_eq_some_iff {l : Logic} {ff : FlipFlop} :
    l.flipFlop? = some ff ↔ l = dtype ff := by
  cases l <;> simp [flipFlop?]

theorem kept_refresh (read : Option Terminal → Bool) (l : Logic) :
    (l.refresh read).kept = l.kept := by
  cases l <;> rfl

theorem fixed_latch (read : Option Terminal → Bool) (l : Logic) :
    (l.latch read).fixed = l.fixed := by
  cases l <;> rfl

theorem fixed_of_kept_eq {l l' : Logic} (h : l'.kept = l.kept) : l'.fixed = l.fixed := by
  have hkept (m : Logic) : m.kept.fixed = m.fixed := by cases m <;> rfl
  rw [← hkept l', h, hkept]

theorem fixed_of_essential_eq {l l' : Logic} (h : l'.essential = l.essential) :
    l'.fixed = l.fixed := by
  have hfixed (m : Logic) : m.essential.fixed = m.fixed := by cases m <;> rfl
  rw [← hfixed l', h, hfixed]

theorem essential_tick_of_eq {l l' : Logic} (h : l'.essential = l.essential) :
    l'.tick.essential = l.tick.essential := by
  have htick (m : Logic) : m.tick.essential = m.essential.tick := by cases m <;> rfl
  rw [htick, h, htick]

theorem flipFlop?_of_essential_eq {l l' : Logic} (h : l'.essential = l.essential) :
    l'.flipFlop? = l.flipFlop? := by
  have hff (m : Logic) : m.essential.flipFlop? = m.flipFlop? := by cases m <;> rfl
  rw [← hff l', h, hff]

theorem bare_of_fixed_eq {l l' : Logic} (h : l'.fixed = l.fixed) : l'.bare = l.bare := by
  have hfixed (m : Logic) : m.fixed.bare = m.bare := by cases m <;> rfl
  rw [← hfixed l', h, hfixed]

/-- A gate differs from one of the same wiring in its output at most. -/
theorem eq_gate_of_fixed_eq {l : Logic} {g : Gate} (h : l.fixed = (gate g).fixed) :
    ∃ output, l = gate { g with output } := by
  cases l with
  | gate g' =>
    obtain ⟨kind, inputs, output⟩ := g'
    obtain ⟨rfl, rfl⟩ : kind = g.kind ∧ inputs = g.inputs := by simpa [fixed] using h
    exact ⟨output, rfl⟩
  | switch | clock | dtype => simp [fixed] at h

end Logic

namespace Circuit

variable {c c' : Circuit} {id : NameId}

theorem agreeOn_fixed_settle (hs : c.settle = (true, c')) : AgreeOn Logic.fixed c c' :=
  (agreeOn_settle Logic.kept_refresh hs).coarsen Logic.fixed_of_kept_eq

theorem agreeOn_fixed_latch (c : Circuit) : AgreeOn Logic.fixed c c.latch :=
  .mapLogic (Logic.fixed_latch c.read) c

/-! ## Evaluation -/

theorem Loopless.wellFounded {k : Dependency} (h : c.Loopless k) : WellFounded (c.Feeds k) := by
  obtain ⟨rank, hrank, -, -⟩ := h.exists_rank
  exact Subrelation.wf (fun hab => hrank _ _ hab) (measure rank).wf

/-- The level of an output, evaluated from the positions of switches, the outputs of clocks and
given stored bits. The outputs that the gates have at present play no part. -/
def eval (c : Circuit) (h : c.Loopless .combinational) (stored : NameId → Bool) (t : Terminal) :
    Bool :=
  match _hd : c.find? t.device, t.pin with
  | some ⟨_, .gate g⟩, .out =>
    g.kind.evaluate (g.inputs.attach.map fun
      | ⟨none, _⟩ => false
      | ⟨some s, _hs⟩ => c.eval h stored s)
  | some ⟨_, .switch closed⟩, .out => closed
  | some ⟨_, .clock k⟩, .out => k.output
  | some ⟨id, .dtype _⟩, .q => stored id
  | some ⟨id, .dtype _⟩, .qbar => !stored id
  | _, _ => false
termination_by h.wellFounded.wrap t.device
decreasing_by exact ⟨_, _hd, s, _hs, rfl⟩

/-- The level of an input, evaluated. An open input is low. -/
def evalInput (c : Circuit) (h : c.Loopless .combinational) (stored : NameId → Bool) :
    Option Terminal → Bool
  | none => false
  | some t => c.eval h stored t

/-- The part with its stored bit replaced, if it has one. -/
def store (stored : Bool) : Logic → Logic
  | .dtype ff => .dtype { ff with stored }
  | l => l

section
variable {h : c.Loopless .combinational} {stored : NameId → Bool} {t : Terminal}

theorem eval_of_find?_eq_none (hd : c.find? t.device = none) : c.eval h stored t = false := by
  rw [eval]
  split <;> simp_all

/-- The recursion of the evaluation. -/
theorem eval_gate {d : Device} {g : Gate} (hd : c.find? t.device = some d)
    (hg : d.logic = .gate g) :
    c.eval h stored t =
      (decide (t.pin = .out) && g.kind.evaluate (g.inputs.map (c.evalInput h stored))) := by
  obtain ⟨id, l⟩ := d
  obtain rfl : l = .gate g := hg
  rw [eval]
  split
  · rename_i id' g' hd' hpin
    obtain ⟨-, rfl⟩ : id' = id ∧ g' = g := by simpa using hd'.symm.trans hd
    rw [hpin]
    show _ = g'.kind.evaluate _
    refine congrArg g'.kind.evaluate (Eq.trans (List.map_congr_left ?_) List.attach_map_val)
    rintro ⟨_ | s, _⟩ _ <;> rfl
  all_goals simp_all

theorem eval_of_ne_gate {d : Device} (hd : c.find? t.device = some d)
    (hg : ∀ g, d.logic ≠ .gate g) :
    c.eval h stored t = ((store (stored t.device) d.logic).output? t.pin).getD false := by
  have hid : d.id = t.device := id_of_find? hd
  obtain ⟨id, l⟩ := d
  obtain rfl : id = t.device := hid
  rw [eval]
  cases l with
  | gate g => exact absurd rfl (hg g)
  | switch closed => cases hp : t.pin <;> split <;> simp_all [store, Logic.output?]
  | clock k => cases hp : t.pin <;> split <;> simp_all [store, Logic.output?]
  | dtype ff => cases hp : t.pin <;> split <;> simp_all [store, Logic.output?]

end

theorem output?_store_congr {l l' : Logic} (hfixed : l'.fixed = l.fixed)
    (hg : ∀ g, l ≠ .gate g) (stored : Bool) (pin : OutputPin) :
    (store stored l').output? pin = (store stored l).output? pin := by
  cases l with
  | gate g => exact absurd rfl (hg g)
  | switch closed => cases l' <;> simp_all [Logic.fixed, store]
  | clock k => cases l' <;> simp_all [Logic.fixed, store]
  | dtype ff => cases l' <;> cases pin <;> simp_all [Logic.fixed, store, Logic.output?]

/-- The evaluation depends on nothing that settling and latching change. -/
theorem eval_congr (hf : AgreeOn Logic.fixed c c') (h : c.Loopless .combinational)
    (h' : c'.Loopless .combinational) (stored : NameId → Bool) (t : Terminal) :
    c'.eval h' stored t = c.eval h stored t := by
  induction hid : t.device using h.wellFounded.induction generalizing t with
  | _ id ih =>
    subst hid
    cases hd : c.find? t.device with
    | none => rw [eval_of_find?_eq_none hd, eval_of_find?_eq_none (hf.find?_eq_none hd)]
    | some d =>
      obtain ⟨d', hd', hfixed⟩ := hf.find? hd
      by_cases hgate : ∃ g, d.logic = .gate g
      · obtain ⟨g, hg⟩ := hgate
        rw [hg] at hfixed
        obtain ⟨output, hg'⟩ := Logic.eq_gate_of_fixed_eq hfixed
        rw [eval_gate hd hg, eval_gate hd' hg']
        congr 2
        refine List.map_congr_left fun driver hdriver => ?_
        cases driver with
        | none => rfl
        | some s => exact ih s.device ⟨d, hd, s, by rwa [hg], rfl⟩ s rfl
      · rw [not_exists] at hgate
        have hgate' : ∀ g, d'.logic ≠ .gate g := by
          intro g hg
          rw [hg] at hfixed
          obtain ⟨output, hd⟩ := Logic.eq_gate_of_fixed_eq hfixed.symm
          exact hgate _ hd
        rw [eval_of_ne_gate hd hgate, eval_of_ne_gate hd' hgate',
          output?_store_congr hfixed hgate]

theorem evalInput_congr (hf : AgreeOn Logic.fixed c c') (h : c.Loopless .combinational)
    (h' : c'.Loopless .combinational) (stored : NameId → Bool) (driver : Option Terminal) :
    c'.evalInput h' stored driver = c.evalInput h stored driver := by
  cases driver with
  | none => rfl
  | some t => exact eval_congr hf h h' stored t

def flipFlop? (c : Circuit) (id : NameId) : Option FlipFlop :=
  (c.find? id).bind (·.logic.flipFlop?)

theorem flipFlop?_eq_some_iff {ff : FlipFlop} :
    c.flipFlop? id = some ff ↔ ∃ d, c.find? id = some d ∧ d.logic = .dtype ff := by
  simp only [flipFlop?, Option.bind_eq_some_iff, Logic.flipFlop?_eq_some_iff]

theorem AgreeOn.flipFlop? {α : Type} {f : Logic → α} (h : AgreeOn f c c')
    (hf : ∀ {l l'}, f l' = f l → l'.flipFlop? = l.flipFlop?) (id : NameId) :
    c'.flipFlop? id = c.flipFlop? id := by
  cases hd : c.find? id with
  | none => rw [Circuit.flipFlop?, Circuit.flipFlop?, hd, h.find?_eq_none hd]
  | some d =>
    obtain ⟨d', hd', he⟩ := h.find? hd
    rw [Circuit.flipFlop?, Circuit.flipFlop?, hd, hd']
    exact hf he

/-- The bit that a flip-flop stores. Other devices count as low. -/
def storedBit (c : Circuit) (id : NameId) : Bool :=
  match c.flipFlop? id with
  | some ff => ff.stored
  | none => false

/-- A settled circuit reads at every input what the evaluation gives. -/
theorem read_eq_eval (h : c.Loopless .combinational) (hs : ∀ id, c.Settled id)
    (driver : Option Terminal) : c.read driver = c.evalInput h c.storedBit driver := by
  cases driver with
  | none => rfl
  | some t =>
    show (c.output? t).getD false = c.eval h c.storedBit t
    induction hid : t.device using h.wellFounded.induction generalizing t with
    | _ id ih =>
      subst hid
      cases hd : c.find? t.device with
      | none => rw [eval_of_find?_eq_none hd, output?, hd]; rfl
      | some d =>
        rw [output?, hd, Option.bind_some, Device.output?]
        by_cases hgate : ∃ g, d.logic = .gate g
        · obtain ⟨g, hg⟩ := hgate
          have hout : g.output = g.kind.evaluate (g.inputs.map c.read) := by
            have := hs t.device d hd
            simp only [hg, Logic.refresh, Logic.gate.injEq] at this
            exact (congrArg Gate.output this).symm
          have hmap : g.inputs.map c.read = g.inputs.map (c.evalInput h c.storedBit) := by
            refine List.map_congr_left fun driver hdriver => ?_
            cases driver with
            | none => rfl
            | some s => exact ih s.device ⟨d, hd, s, by rwa [hg], rfl⟩ s rfl
          rw [eval_gate hd hg, hg, ← hmap, ← hout]
          cases t.pin <;> rfl
        · rw [not_exists] at hgate
          have hbit : store (c.storedBit t.device) d.logic = d.logic := by
            rw [storedBit, flipFlop?, hd, Option.bind_some]
            cases d.logic <;> rfl
          rw [eval_of_ne_gate hd hgate, hbit]

end Circuit

end Breadboard
