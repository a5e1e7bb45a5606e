import Breadboard.Proofs.Circuit.Settling

/-!
# Latching

In a round of latching all flip-flops sample their clocks at once. A flip-flop that has sampled
the level its clock still has does not latch again until that level changes.

* `latch_eq_self`: a round changes nothing once every flip-flop has sampled its clock.
* `stored_latch_eq_iff`: a round that stores nothing new leaves every stored bit alone.
* `rest_of_latchWithin_ok`: rounds that come to an end leave every device settled and every
  clock sampled.
-/
namespace Breadboard

namespace Logic

/-- A flip-flop that has sampled its clock does not latch. -/
theorem latch_eq_self {read : Option Terminal → Bool} {l : Logic}
    (h : ∀ ff, l = .dtype ff → ff.lastClk = read ff.clk) : l.latch read = l := by
  cases l with
  | dtype ff =>
    have hlast := h ff rfl
    have hlatches : ff.latches read = false := by
      rw [FlipFlop.latches, hlast]
      cases read ff.clk <;> rfl
    simp only [latch, FlipFlop.latch, hlatches, ← hlast]
    rfl
  | gate | switch | clock => rfl

theorem lastClk_of_latch_eq {read : Option Terminal → Bool} {l : Logic} {ff : FlipFlop}
    (h : l.latch read = .dtype ff) : ff.lastClk = read ff.clk := by
  cases l with
  | dtype ff' => cases h; rfl
  | gate | switch | clock => cases h

/-- A flip-flop on which `SET` or `CLEAR` acts does not latch, so a round does not unsettle
it. -/
theorem refresh_latch {read : Option Terminal → Bool} {l : Logic} (h : l.refresh read = l) :
    (l.latch read).refresh read = l.latch read := by
  cases l with
  | gate | switch | clock => exact h
  | dtype ff =>
    simp only [refresh, dtype.injEq] at h
    have hstored : (ff.forced? read).getD ff.stored = ff.stored := congrArg FlipFlop.stored h
    have hforced : (ff.latch read).forced? read = ff.forced? read := rfl
    simp only [latch, refresh, hforced]
    cases hf : ff.forced? read with
    | none => rfl
    | some level =>
      rw [hf, Option.getD_some] at hstored
      simp [FlipFlop.latch, FlipFlop.latches, hf, hstored]

theorem output?_latch {read : Option Terminal → Bool} {l : Logic}
    (h : (l.latch read).stored? = l.stored?) (pin : OutputPin) :
    (l.latch read).output? pin = l.output? pin := by
  cases l with
  | gate | switch | clock => rfl
  | dtype ff =>
    have hstored : (ff.latch read).stored = ff.stored := by simpa [latch, stored?] using h
    cases pin <;> simp [latch, output?, hstored]

theorem isSome_stored?_latch (read : Option Terminal → Bool) (l : Logic) :
    (l.latch read).stored?.isSome = l.stored?.isSome := by
  cases l <;> rfl

end Logic

namespace Circuit

variable {c : Circuit} {id : NameId}

/-- The device, if it is a flip-flop, has sampled the level its clock has now. -/
def Sampled (c : Circuit) (id : NameId) : Prop :=
  ∀ d, c.find? id = some d → ∀ ff, d.logic = .dtype ff → ff.lastClk = c.read ff.clk

theorem find?_latch (c : Circuit) (id : NameId) :
    c.latch.find? id = (c.find? id).map (·.mapLogic (·.latch c.read)) :=
  find?_mapLogic c _ id

theorem find?_latch_of_sampled (h : c.Sampled id) : c.latch.find? id = c.find? id := by
  rw [find?_latch]
  cases hd : c.find? id with
  | none => rfl
  | some d => rw [Option.map_some, Device.mapLogic, Logic.latch_eq_self (h d hd)]

theorem latch_eq_self (hn : c.ids.Nodup) (h : ∀ id, c.Sampled id) : c.latch = c :=
  ext_find? hn (sameShape_mapLogic c _) fun id _ => find?_latch_of_sampled (h id)

/-! ## Rounds that store nothing new -/

theorem filterMap_map_eq_iff {α β : Type} {f : α → α} {g : α → Option β}
    (hf : ∀ a, (g (f a)).isSome = (g a).isSome) (l : List α) :
    (l.map f).filterMap g = l.filterMap g ↔ ∀ a ∈ l, g (f a) = g a := by
  induction l with
  | nil => simp
  | cons a l ih =>
    have ha := hf a
    rw [List.map_cons, List.forall_mem_cons, ← ih]
    cases h : g a with
    | none =>
      have h' : g (f a) = none := by simpa [h] using ha
      simp only [List.filterMap_cons, h, h', true_and]
    | some b =>
      obtain ⟨b', h'⟩ : ∃ b', g (f a) = some b' := Option.isSome_iff_exists.1 (by simp [ha, h])
      simp only [List.filterMap_cons, h, h', List.cons.injEq, Option.some.injEq]

/-- A round stores nothing new exactly when no flip-flop changes its bit. -/
theorem stored_latch_eq_iff (c : Circuit) :
    c.latch.stored = c.stored ↔
      ∀ d ∈ c.devices, (d.logic.latch c.read).stored? = d.logic.stored? :=
  filterMap_map_eq_iff (fun d => d.logic.isSome_stored?_latch c.read) c.devices

theorem output?_latch (h : c.latch.stored = c.stored) (t : Terminal) :
    c.latch.output? t = c.output? t := by
  simp only [output?, find?_latch]
  cases hd : c.find? t.device with
  | none => rfl
  | some d =>
    have hmem := List.mem_of_find?_eq_some hd
    exact Logic.output?_latch ((stored_latch_eq_iff c).1 h d hmem) t.pin

theorem read_latch (h : c.latch.stored = c.stored) : c.latch.read = c.read :=
  funext fun _ => read_congr fun t _ => output?_latch h t

theorem settled_latch (h : c.latch.stored = c.stored) (hs : c.Settled id) :
    c.latch.Settled id := by
  intro e he
  rw [find?_latch] at he
  obtain ⟨d, hd, rfl⟩ := Option.map_eq_some_iff.1 he
  rw [read_latch h]
  exact Logic.refresh_latch (hs d hd)

theorem sampled_latch (h : c.latch.stored = c.stored) : c.latch.Sampled id := by
  intro e he ff hff
  rw [find?_latch] at he
  obtain ⟨d, -, rfl⟩ := Option.map_eq_some_iff.1 he
  rw [read_latch h]
  exact Logic.lastClk_of_latch_eq hff

/-! ## Coming to rest -/

theorem settled_of_settle {c' : Circuit} (hn : c.ids.Nodup) (h : c.settle = (true, c')) :
    ∀ id, c'.Settled id := by
  have hn' : c'.ids.Nodup := by rwa [← ids_settle, h] at hn
  intro id
  by_cases hmem : id ∈ c'.ids
  · exact (pass_eq_self_iff hn').1 (pass_of_settleWithin h) id hmem
  · exact settled_of_notMem hmem

theorem settle_eq_self (hn : c.ids.Nodup) (h : ∀ id, c.Settled id) : c.settle = (true, c) := by
  have hpass : c.pass = c := (pass_eq_self_iff hn).2 fun id _ => h id
  obtain ⟨n, hbound⟩ := c.exists_settleBound_eq
  rw [settle, hbound, settleWithin, if_pos hpass, hpass]

theorem latchWithin_eq_self {n : Nat} (hn : c.ids.Nodup) (h : ∀ id, c.Sampled id) :
    latchWithin (n + 1) c = (.ok (), c) := by
  have hlatch : c.latch = c := latch_eq_self hn h
  rw [latchWithin, if_pos (congrArg stored hlatch), hlatch]

/-- Where a round leaves every clock sampled, it is the last one that matters. -/
theorem latchWithin_of_sampled {n : Nat} {c' : Circuit} (hn : c.ids.Nodup)
    (hs : ∀ id, c.Settled id) (hsettle : c.latch.settle = (true, c'))
    (hsampled : ∀ id, c'.Sampled id) (hbound : c.size < n) :
    latchWithin n c = (.ok (), c') := by
  obtain ⟨n, rfl⟩ : ∃ m, n = m + 1 := ⟨n - 1, by omega⟩
  have hlatch : c.latch.ids.Nodup := by rwa [ids_latch]
  rw [latchWithin]
  by_cases hstored : c.latch.stored = c.stored
  · have hself := settle_eq_self hlatch fun id => settled_latch hstored (hs id)
    rw [hsettle] at hself
    rw [if_pos hstored, (Prod.mk.inj hself).2]
  · have hne : c.devices ≠ [] := by
      intro hnil
      refine hstored ?_
      simp [stored, latch, mapLogic, hnil]
    have hpos : 0 < c.size := List.length_pos_iff.2 hne
    obtain ⟨n, rfl⟩ : ∃ m, n = m + 1 := ⟨n - 1, by omega⟩
    have hn' : c'.ids.Nodup := by rwa [← ids_settle, hsettle] at hlatch
    simp only [if_neg hstored, hsettle]
    exact latchWithin_eq_self hn' hsampled

/-- Rounds that come to an end leave every device settled and every clock sampled, although
each round may unsettle what the one before has settled. -/
theorem rest_of_latchWithin_ok {n : Nat} {c' : Circuit} (hn : c.ids.Nodup)
    (hs : ∀ id, c.Settled id) (h : latchWithin n c = (.ok (), c')) :
    ∀ id, c'.Settled id ∧ c'.Sampled id := by
  induction n generalizing c with
  | zero => cases h
  | succ n ih =>
    simp only [latchWithin] at h
    split at h
    · rename_i hstored
      cases h
      exact fun id => ⟨settled_latch hstored (hs id), sampled_latch hstored⟩
    · split at h
      · rename_i c₁ hsettle
        have hlatch : c.latch.ids.Nodup := by rwa [ids_latch]
        have hn₁ : c₁.ids.Nodup := by rwa [← ids_settle, hsettle] at hlatch
        exact ih hn₁ (settled_of_settle hlatch hsettle) h
      · cases h

end Circuit

end Breadboard
