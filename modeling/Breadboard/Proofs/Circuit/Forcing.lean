import Breadboard.Proofs.Circuit.Evaluation

/-!
# What is forced on flip-flops

Where gates have no loop among themselves and every `SET` and `CLEAR` is open or driven directly
by a clock or a switch, what is forced on a flip-flop does not change while a circuit settles.
Settling then has a single outcome: it does not depend on the order of the devices nor on the
outputs that the gates had before.

* `flipFlop?_settle_of_isSource`, `flipFlop?_settle`: settling a flip-flop amounts to obeying `SET`
  and `CLEAR`, for a single flip-flop whatever the circuit, and for all of them.
* `find?_settle_congr`: circuits that differ in the order of their devices and in the outputs of
  their gates settle to the same devices.
-/
namespace Breadboard.Circuit

variable {c c' : Circuit} {id : NameId}

/-- The input is open or driven by a clock or a switch. -/
def IsSource (c : Circuit) (driver : Option Terminal) : Prop :=
  ∀ t, driver = some t → ∃ s, c.find? t.device = some s ∧ (s.kind = .switch ∨ s.kind = .clock)

/-- Of the inputs of flip-flops, those that count are open or driven directly by a clock or a
switch. -/
def DirectlyDriven (c : Circuit) (k : Dependency) : Prop :=
  ∀ id ff, c.flipFlop? id = some ff → ∀ driver ∈ k.drivers (.dtype ff), c.IsSource driver

/-- The bit of a flip-flop once `SET` and `CLEAR` have acted. -/
def preset (c : Circuit) (id : NameId) : Bool :=
  match c.flipFlop? id with
  | some ff => if c.read ff.set then true else if c.read ff.clear then false else ff.stored
  | none => false

theorem preset_eq {ff : FlipFlop} (hff : c.flipFlop? id = some ff) :
    c.preset id = (ff.forced? c.read).getD ff.stored := by
  simp only [preset, hff, FlipFlop.forced?]
  split
  · rfl
  · split <;> rfl

/-! ## Clocks and switches -/

theorem eq_of_fixed_eq {l l' : Logic} (h : l'.fixed = l.fixed)
    (hkind : l.kind = .switch ∨ l.kind = .clock) : l' = l := by
  cases l with
  | gate | dtype => simp [Logic.kind] at hkind
  | switch closed => cases l' <;> simp_all [Logic.fixed]
  | clock k => cases l' <;> simp_all [Logic.fixed]

theorem IsSource.read_eq {driver : Option Terminal} (hs : c.IsSource driver)
    (hf : AgreeOn Logic.fixed c c') : c'.read driver = c.read driver := by
  refine read_congr fun t ht => ?_
  obtain ⟨s, hs, hkind⟩ := hs t ht
  obtain ⟨s', hs', hfixed⟩ := hf.find? hs
  simp only [output?, hs, hs', Option.bind_some, Device.output?, eq_of_fixed_eq hfixed hkind]

theorem IsSource.of_agreeOn_bare {driver : Option Terminal} (h : c.IsSource driver)
    (hb : AgreeOn Logic.bare c c') : c'.IsSource driver := by
  intro t ht
  obtain ⟨s, hs, hkind⟩ := h t ht
  obtain ⟨s', hs', hsbare⟩ := hb.find? hs
  refine ⟨s', hs', ?_⟩
  have hbarekind (l : Logic) : l.bare.kind = l.kind := by cases l <;> rfl
  rwa [Device.kind, ← hbarekind, hsbare, hbarekind]

/-- Where `SET` and `CLEAR` are open or driven directly, the same level is forced before and after
settling and latching. -/
theorem forced?_eq_of_isSource {ff : FlipFlop} (hset : c.IsSource ff.set)
    (hclear : c.IsSource ff.clear) (hf : AgreeOn Logic.fixed c c') :
    ff.forced? c'.read = ff.forced? c.read := by
  rw [FlipFlop.forced?, FlipFlop.forced?, hset.read_eq hf, hclear.read_eq hf]

/-- The place of a device among those that act at once: clocks and switches come first, then
flip-flops, then gates by a rank of their own. -/
def stage (c : Circuit) (rank : NameId → Nat) (id : NameId) : Nat :=
  match c.find? id with
  | some ⟨_, .gate _⟩ => rank id + 2
  | some ⟨_, .dtype _⟩ => 1
  | _ => 0

namespace DirectlyDriven

theorem of_devices {k : Dependency}
    (h : ∀ d ∈ c.devices, d.kind = .dtype → ∀ t ∈ (k.drivers d.logic).reduceOption,
      (c.find? t.device).any fun s => s.kind = .switch ∨ s.kind = .clock) :
    c.DirectlyDriven k := by
  intro id ff hff driver hdriver t ht
  obtain ⟨d, hd, hlogic⟩ := flipFlop?_eq_some_iff.1 hff
  have hkind : d.kind = .dtype := by rw [Device.kind, hlogic, Logic.kind]
  have hmem : some t ∈ k.drivers d.logic := by
    rw [hlogic, ← ht]
    exact hdriver
  have hsource := h d (List.mem_of_find?_eq_some hd) hkind t (List.reduceOption_mem_iff.2 hmem)
  obtain ⟨s, hs, hs'⟩ := (Option.any_eq_true _ _).1 hsource
  exact ⟨s, hs, by simpa using hs'⟩

theorem of_agreeOn_bare {k : Dependency} (h : c.DirectlyDriven k)
    (hb : AgreeOn Logic.bare c c') : c'.DirectlyDriven k := by
  intro id ff' hff' driver hdriver
  obtain ⟨d', hd', hlogic'⟩ := flipFlop?_eq_some_iff.1 hff'
  obtain ⟨d, hd, hbare⟩ := hb.symm.find? hd'
  rw [hlogic'] at hbare
  obtain ⟨ff, hlogic⟩ : ∃ ff, d.logic = .dtype ff := by
    cases hl : d.logic <;> simp_all [Logic.bare]
  rw [← k.drivers_of_bare_eq hbare, hlogic] at hdriver
  have hff : c.flipFlop? id = some ff := flipFlop?_eq_some_iff.2 ⟨d, hd, hlogic⟩
  exact (h id ff hff driver hdriver).of_agreeOn_bare hb

theorem isSource {ff : FlipFlop} (h : c.DirectlyDriven .asynchronous)
    (hff : c.flipFlop? id = some ff) : c.IsSource ff.set ∧ c.IsSource ff.clear :=
  ⟨h id ff hff _ (by simp [Dependency.drivers]), h id ff hff _ (by simp [Dependency.drivers])⟩

/-- What is forced on a flip-flop is the same before and after settling and latching. -/
theorem forced?_eq {ff : FlipFlop} (h : c.DirectlyDriven .asynchronous)
    (hf : AgreeOn Logic.fixed c c') (hff : c.flipFlop? id = some ff) :
    ff.forced? c'.read = ff.forced? c.read :=
  forced?_eq_of_isSource (h.isSource hff).1 (h.isSource hff).2 hf

/-- Only gates depend on gates, so there is no loop through `SET` and `CLEAR` either. -/
theorem loopless (h : c.DirectlyDriven .asynchronous) (hl : c.Loopless .combinational) :
    c.Loopless .asynchronous := by
  obtain ⟨rank, hrank, -, -⟩ := hl.exists_rank
  have hle : ∀ id, c.stage rank id ≤ rank id + 2 := by
    intro id
    simp only [stage]
    split <;> omega
  have hstage : ∀ a b, c.Feeds .asynchronous a b → c.stage rank a < c.stage rank b := by
    rintro a b ⟨⟨id, l⟩, hd, t, ht, rfl⟩
    cases l with
    | gate g =>
      have hlt := hrank t.device b ⟨_, hd, t, ht, rfl⟩
      have hb : c.stage rank b = rank b + 2 := by simp only [stage, hd]
      have := hle t.device
      omega
    | dtype ff =>
      have hb : c.stage rank b = 1 := by simp only [stage, hd]
      have hff : c.flipFlop? b = some ff := flipFlop?_eq_some_iff.2 ⟨_, hd, rfl⟩
      obtain ⟨⟨sid, s⟩, hs, hkind⟩ := h b ff hff _ ht t rfl
      have ha : c.stage rank t.device = 0 := by
        cases s <;> simp_all [stage, Device.kind, Logic.kind]
      omega
    | switch | clock => simp [Dependency.drivers] at ht
  exact loopless_of_rank hstage

end DirectlyDriven

/-! ## Settling -/

theorem flipFlop?_latch {ff : FlipFlop} (hff : c.flipFlop? id = some ff) :
    c.latch.flipFlop? id = some (ff.latch c.read) := by
  obtain ⟨d, hd, hlogic⟩ := flipFlop?_eq_some_iff.1 hff
  refine flipFlop?_eq_some_iff.2 ⟨_, by rw [find?_latch, hd, Option.map_some], ?_⟩
  show d.logic.latch c.read = _
  rw [hlogic]
  rfl

/-- Refreshing a device leaves another flip-flop alone, and lets `SET` and `CLEAR` act on this
one. -/
theorem flipFlop?_refresh {ff : FlipFlop} (hff : c.flipFlop? id = some ff) (x : NameId) :
    (c.refresh x).flipFlop? id =
      some (if id = x then { ff with stored := (ff.forced? c.read).getD ff.stored } else ff) := by
  obtain ⟨d, hd, hlogic⟩ := flipFlop?_eq_some_iff.1 hff
  by_cases hid : id = x
  · subst hid
    rw [if_pos rfl]
    refine flipFlop?_eq_some_iff.2 ⟨_, find?_refresh_self hd, ?_⟩
    show d.logic.refresh c.read = _
    rw [hlogic]
    rfl
  · rw [if_neg hid]
    exact flipFlop?_eq_some_iff.2 ⟨d, (find?_refresh_of_ne hid).trans hd, hlogic⟩

/-- While a circuit settles, a flip-flop holds its old bit or the one that is forced on it, and so
comes to hold the latter if there is one. -/
structure Presetting (c : Circuit) (id : NameId) (ff : FlipFlop) (e : Circuit) : Prop where
  fixed : AgreeOn Logic.fixed c e
  bit : ∃ stored, e.flipFlop? id = some { ff with stored } ∧
    (ff.forced? c.read).getD stored = (ff.forced? c.read).getD ff.stored

section
variable {ff : FlipFlop} (hset : c.IsSource ff.set) (hclear : c.IsSource ff.clear)
include hset hclear

theorem Presetting.refresh {e : Circuit} (h : c.Presetting id ff e) (x : NameId) :
    c.Presetting id ff (e.refresh x) := by
  obtain ⟨hf, stored, hstored, hbit⟩ := h
  have hforced : FlipFlop.forced? e.read { ff with stored } = ff.forced? c.read :=
    forced?_eq_of_isSource hset hclear hf
  refine ⟨hf.trans (agreeOn_refresh (fun read l => Logic.fixed_of_kept_eq (l.kept_refresh read))
    e x), ?_⟩
  rw [flipFlop?_refresh hstored, hforced]
  split
  · refine ⟨_, rfl, ?_⟩
    rw [hbit]
    cases ff.forced? c.read <;> rfl
  · exact ⟨stored, rfl, hbit⟩

/-- Whatever the rest of the circuit does, settling a flip-flop amounts to obeying `SET` and `CLEAR`
if these are open or driven directly. -/
theorem flipFlop?_settle_of_isSource (hn : c.ids.Nodup) (hs : c.settle = (true, c'))
    (hff : c.flipFlop? id = some ff) :
    c'.flipFlop? id = some { ff with stored := (ff.forced? c.read).getD ff.stored } := by
  have hpresetting : c.Presetting id ff c.settle.2 :=
    settleWithin_preserves (fun e x h => h.refresh hset hclear x) _ ⟨fun _ => rfl, _, hff, rfl⟩
  rw [hs] at hpresetting
  obtain ⟨hf, stored, hstored, hbit⟩ := hpresetting
  obtain ⟨d', hd', hlogic'⟩ := flipFlop?_eq_some_iff.1 hstored
  have hforced : FlipFlop.forced? c'.read { ff with stored } = ff.forced? c.read :=
    forced?_eq_of_isSource hset hclear hf
  have hrest := settled_of_settle hn hs id d' hd'
  rw [hlogic', Logic.refresh, Logic.dtype.injEq, hforced, hbit] at hrest
  have hfinal : (ff.forced? c.read).getD ff.stored = stored := congrArg FlipFlop.stored hrest
  rw [hstored, hfinal]

end

theorem flipFlop?_settle {ff : FlipFlop} (hn : c.ids.Nodup) (h : c.DirectlyDriven .asynchronous)
    (hs : c.settle = (true, c')) (hff : c.flipFlop? id = some ff) :
    c'.flipFlop? id = some { ff with stored := c.preset id } := by
  obtain ⟨hset, hclear⟩ := h.isSource hff
  rw [preset_eq hff]
  exact flipFlop?_settle_of_isSource hset hclear hn hs hff

theorem isNone_flipFlop?_of_agreeOn_fixed (h : AgreeOn Logic.fixed c c')
    (hff : c.flipFlop? id = none) : c'.flipFlop? id = none := by
  cases hff' : c'.flipFlop? id with
  | none => rfl
  | some ff' =>
    obtain ⟨d', hd', hlogic'⟩ := flipFlop?_eq_some_iff.1 hff'
    obtain ⟨d, hd, hfixed⟩ := h.symm.find? hd'
    rw [hlogic'] at hfixed
    cases hlogic : d.logic <;> simp_all [Logic.fixed, flipFlop?, Logic.flipFlop?]

theorem storedBit_settle (hn : c.ids.Nodup) (h : c.DirectlyDriven .asynchronous)
    (hs : c.settle = (true, c')) : c'.storedBit = c.preset := by
  funext id
  cases hff : c.flipFlop? id with
  | none =>
    have hff' := isNone_flipFlop?_of_agreeOn_fixed (agreeOn_fixed_settle hs) hff
    simp only [storedBit, preset, hff, hff']
  | some ff => simp only [storedBit, flipFlop?_settle hn h hs hff]

theorem preset_congr (h : c.DirectlyDriven .asynchronous) (he : AgreeOn Logic.essential c c') :
    c'.preset = c.preset := by
  have hfixed : AgreeOn Logic.fixed c c' := he.coarsen Logic.fixed_of_essential_eq
  funext id
  have hflip := he.flipFlop? Logic.flipFlop?_of_essential_eq id
  cases hff : c.flipFlop? id with
  | none => simp only [preset, hflip, hff]
  | some ff => rw [preset_eq hff, preset_eq (hflip.trans hff), h.forced?_eq hfixed hff]

/-! ## The outcome of settling -/

/-- A settled circuit reads at every input what the evaluation gives for the preset bits. -/
theorem read_settle (hn : c.ids.Nodup) (hl : c.Loopless .combinational)
    (h : c.DirectlyDriven .asynchronous) (hs : c.settle = (true, c')) :
    c'.read = c.evalInput hl c.preset := by
  have hfixed : AgreeOn Logic.fixed c c' := agreeOn_fixed_settle hs
  have hbare : AgreeOn Logic.bare c c' := hfixed.coarsen Logic.bare_of_fixed_eq
  funext driver
  rw [read_eq_eval (hbare.loopless hl) (settled_of_settle hn hs), storedBit_settle hn h hs]
  exact evalInput_congr hfixed hl _ _ driver

/-- A settled circuit is determined by its flip-flops, its clocks and switches, and what its
inputs read. -/
theorem find?_eq_of_settled (hf : AgreeOn Logic.fixed c c')
    (hflip : ∀ id, c'.flipFlop? id = c.flipFlop? id) (hread : c'.read = c.read)
    (hs : ∀ id, c.Settled id) (hs' : ∀ id, c'.Settled id) (id : NameId) :
    c'.find? id = c.find? id := by
  cases hd : c.find? id with
  | none => exact hf.find?_eq_none hd
  | some d =>
    obtain ⟨d', hd', hfixed⟩ := hf.find? hd
    have hid : d'.id = d.id := (id_of_find? hd').trans (id_of_find? hd).symm
    suffices hlogic : d'.logic = d.logic by
      rw [hd', show d' = d from Device.mk.injEq .. ▸ ⟨hid, hlogic⟩]
    cases hlogic : d.logic with
    | gate g =>
      have hsettled := hs id d hd
      have hsettled' := hs' id d' hd'
      rw [hlogic] at hfixed
      obtain ⟨output, hlogic'⟩ := Logic.eq_gate_of_fixed_eq hfixed
      rw [← hsettled', hlogic', hread, ← hlogic, ← hsettled, hlogic]
      rfl
    | dtype ff =>
      have hff : c.flipFlop? id = some ff := flipFlop?_eq_some_iff.2 ⟨d, hd, hlogic⟩
      rw [← hflip, flipFlop?, hd', Option.bind_some, Logic.flipFlop?_eq_some_iff] at hff
      exact hff
    | switch closed =>
      rw [hlogic] at hfixed
      exact eq_of_fixed_eq hfixed (Or.inl rfl)
    | clock k =>
      rw [hlogic] at hfixed
      exact eq_of_fixed_eq hfixed (Or.inr rfl)

/-- Circuits that differ in the order of their devices and in the outputs of their gates settle
to the same devices. -/
theorem find?_settle_congr {e e' : Circuit} (hn : c.ids.Nodup) (hn' : c'.ids.Nodup)
    (hl : c.Loopless .combinational) (h : c.DirectlyDriven .asynchronous)
    (he : AgreeOn Logic.essential c c') (hs : c.settle = (true, e))
    (hs' : c'.settle = (true, e')) (id : NameId) : e'.find? id = e.find? id := by
  have hfixed : AgreeOn Logic.fixed c c' := he.coarsen Logic.fixed_of_essential_eq
  have hbare : AgreeOn Logic.bare c c' := hfixed.coarsen Logic.bare_of_fixed_eq
  have hl' : c'.Loopless .combinational := hbare.loopless hl
  have h' : c'.DirectlyDriven .asynchronous := h.of_agreeOn_bare hbare
  have hpreset : c'.preset = c.preset := preset_congr h he
  have hagree : AgreeOn Logic.fixed e e' :=
    ((agreeOn_fixed_settle hs).symm.trans hfixed).trans (agreeOn_fixed_settle hs')
  have hflip : ∀ id, e'.flipFlop? id = e.flipFlop? id := by
    intro id
    have hsame := he.flipFlop? Logic.flipFlop?_of_essential_eq id
    cases hff : c.flipFlop? id with
    | none =>
      rw [isNone_flipFlop?_of_agreeOn_fixed (agreeOn_fixed_settle hs) hff,
        isNone_flipFlop?_of_agreeOn_fixed (agreeOn_fixed_settle hs') (hsame.trans hff)]
    | some ff =>
      rw [flipFlop?_settle hn h hs hff, flipFlop?_settle hn' h' hs' (hsame.trans hff), hpreset]
  have hread : e'.read = e.read := by
    rw [read_settle hn hl h hs, read_settle hn' hl' h' hs', hpreset]
    exact funext (evalInput_congr hfixed hl hl' _)
  exact find?_eq_of_settled hagree hflip hread (settled_of_settle hn hs)
    (settled_of_settle hn' hs') id

end Breadboard.Circuit
