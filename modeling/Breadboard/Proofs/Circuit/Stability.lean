import Breadboard.Proofs.Circuit.Latching

/-!
# Stability

Only feedback keeps a circuit from coming to rest. Take the graph with an edge from the driver
to the driven device for every input of a gate and for every `CLK`, `SET` and `CLEAR`. If it
has no loop, its devices have ranks that grow along the edges, and two inductions over the rank
bound a cycle: pass `k` settles the devices of rank `k` (`settle_eq_true`), and from round `k`
on the flip-flops of rank `k` have sampled their clocks for good.

* `cycle_ok_of_loopless`: without such a loop a cycle succeeds, from every state and with every
  limit.
-/
namespace Breadboard.Circuit

variable {c : Circuit} {id : NameId}

/-- Inputs that act at once are among those that can bring about a change. -/
theorem feeds_triggering {a b : NameId} (h : c.Feeds .asynchronous a b) :
    c.Feeds .triggering a b := by
  obtain ⟨d, hd, t, ht, ha⟩ := h
  exact ⟨d, hd, t, Dependency.drivers_asynchronous_subset _ ht, ha⟩

theorem Loopless.asynchronous (h : c.Loopless .triggering) : c.Loopless .asynchronous :=
  fun id hid => h id (Relation.TransGen.mono (fun _ _ => feeds_triggering) _ _ hid)

/-- The clock input of a flip-flop: its driver and the level last sampled there. -/
def edge? : Logic → Option (Option Terminal × Bool)
  | .dtype ff => some (ff.clk, ff.lastClk)
  | _ => none

/-- After a round a flip-flop has sampled the level that its clock had before the round. -/
theorem lastClk_of_round {c' : Circuit} (hsettle : c.latch.settle = (true, c')) {d : Device}
    {ff : FlipFlop} (hd : c'.find? id = some d) (hff : d.logic = .dtype ff) :
    ff.lastClk = c.read ff.clk := by
  have hkeep : ∀ read l, edge? (Logic.refresh read l) = edge? l := fun _ l => by cases l <;> rfl
  obtain ⟨e, he, hedge⟩ := (agreeOn_settle hkeep hsettle).symm.find? hd
  rw [find?_latch] at he
  obtain ⟨d₀, -, rfl⟩ := Option.map_eq_some_iff.1 he
  rw [hff] at hedge
  cases hl : d₀.logic with
  | dtype ff₀ =>
    simp only [Device.mapLogic, hl, Logic.latch, edge?, Option.some.injEq, Prod.mk.injEq] at hedge
    rw [← hedge.1, ← hedge.2]
    rfl
  | gate | switch | clock => simp [Device.mapLogic, hl, Logic.latch, edge?] at hedge

theorem bare_of_round {c' : Circuit} (hsettle : c.latch.settle = (true, c')) :
    c'.bare = c.bare := by
  rw [← bare_latch c, ← bare_settle c.latch, hsettle]

section
variable {rank : NameId → Nat}

/-- A round leaves the devices below a rank alone once they have sampled their clocks. -/
theorem find?_round_of_rank {k : Nat} {c' : Circuit} (hn : c.ids.Nodup)
    (hrank : ∀ a b, c.Feeds .triggering a b → rank a < rank b) (hs : ∀ id, c.Settled id)
    (h : ∀ id, rank id < k → c.Sampled id) (hsettle : c.latch.settle = (true, c')) :
    ∀ id, rank id < k → c'.find? id = c.find? id := by
  have hlatch : ∀ id, rank id < k → c.latch.find? id = c.find? id :=
    fun id hid => find?_latch_of_sampled (h id hid)
  have hclosed : c.Closed (rank · < k) := fun a b hab hb =>
    Nat.lt_trans (hrank a b (feeds_triggering hab)) hb
  have hsettled : ∀ id, rank id < k → c.latch.Settled id := fun id hid =>
    (hs id).congr (hlatch id hid) fun a ha => hlatch a (hclosed a id ha hid)
  have hn' : c.latch.ids.Nodup := by rwa [ids_latch]
  intro id hid
  have hkeep := find?_settleWithin_of_settled c.latch.settleBound hn'
    (hclosed.of_bare_eq (bare_latch c)) hsettled id hid
  rw [show settleWithin c.latch.settleBound c.latch = (true, c') from hsettle] at hkeep
  rw [hkeep, hlatch id hid]

/-- One more round lets the flip-flops of the next rank sample their clocks for good. -/
theorem sampled_round {k : Nat} {c' : Circuit} (hn : c.ids.Nodup)
    (hrank : ∀ a b, c.Feeds .triggering a b → rank a < rank b) (hs : ∀ id, c.Settled id)
    (h : ∀ id, rank id < k → c.Sampled id) (hsettle : c.latch.settle = (true, c')) :
    ∀ id, rank id < k + 1 → c'.Sampled id := by
  intro id hid d hd ff hff
  rw [lastClk_of_round hsettle hd hff]
  refine (read_congr fun t ht => output?_congr ?_).symm
  have hbare := bare_of_round hsettle
  have hfeeds : c'.Feeds .triggering t.device id :=
    ⟨d, hd, t, by simp [Dependency.drivers, hff, ht], rfl⟩
  have hlt := hrank t.device id (feeds_of_bare_eq hbare hfeeds)
  exact find?_round_of_rank hn hrank hs h hsettle t.device (by omega)

/-- It takes one round for each rank that is left, and one more that stores nothing new. -/
theorem latchWithin_ok_of_rank {k n m : Nat} (hn : c.ids.Nodup)
    (hl : c.Loopless .asynchronous)
    (hrank : ∀ a b, c.Feeds .triggering a b → rank a < rank b) (hmax : ∀ a, rank a ≤ n)
    (hs : ∀ id, c.Settled id) (h : ∀ id, rank id < k → c.Sampled id) (hk : k ≤ n + 1)
    (hm : n + 1 - k < m) : (latchWithin m c).1 = .ok () := by
  induction m generalizing c k with
  | zero => omega
  | succ m ih =>
    simp only [latchWithin]
    split
    · rfl
    · rename_i hchanged
      have hkn : k ≤ n := by
        by_contra hlt
        refine hchanged (congrArg stored (latch_eq_self hn fun id => h id ?_))
        have := hmax id
        omega
      have hlatch : c.latch.ids.Nodup := by rwa [ids_latch]
      obtain ⟨c', hsettle⟩ := exists_settle hlatch (hl.of_bare_eq (bare_latch c))
      have hbare := bare_of_round hsettle
      rw [hsettle]
      refine ih (k := k + 1) (by rwa [(sameShape_of_bare_eq hbare).1]) (hl.of_bare_eq hbare)
        (fun a b hab => hrank a b (feeds_of_bare_eq hbare hab))
        (settled_of_settle hlatch hsettle) (sampled_round hn hrank hs h hsettle) (by omega)
        (by omega)

end

/-- **Stability.** Without a loop through inputs other than `DATA`, a cycle comes to rest:
whatever the limit, the order of declaration and the state. So a cycle that does not come to
rest exhibits such a loop. -/
theorem cycle_ok_of_loopless (hc : c.Assembled) :
    (c.Loopless .triggering → c.cycle.1 = .ok ()) ∧
      ((∃ unrest, c.cycle.1 = .error unrest) →
        ∃ id, Relation.TransGen (c.Feeds .triggering) id id) := by
  have hok : c.Loopless .triggering → c.cycle.1 = .ok () := by
    intro hloop
    obtain ⟨rank, hrank, hpos, hmax⟩ := hloop.exists_rank
    have htick : c.tick.ids.Nodup := by rw [ids_tick]; exact hc.nodup
    have hasync := hloop.asynchronous.of_bare_eq (bare_tick c)
    obtain ⟨c', hsettle⟩ := exists_settle htick hasync
    have hbare : c'.bare = c.bare := by rw [← bare_tick c, ← bare_settle c.tick, hsettle]
    have hshape := sameShape_of_bare_eq hbare
    have hbound : c.size + 1 ≤ c'.settleBound := by
      rw [hshape.settleBound_eq]
      exact Nat.le_max_right _ _
    rw [cycle, hsettle]
    refine latchWithin_ok_of_rank (k := 1) (by rw [hshape.1]; exact hc.nodup)
      (hloop.asynchronous.of_bare_eq hbare)
      (fun a b hab => hrank a b (feeds_of_bare_eq hbare hab)) hmax
      (settled_of_settle htick hsettle) (fun id hid => ?_) (by omega) (by omega)
    intro d hd
    have hmem : id ∈ c.ids := by
      rw [← hshape.1]
      exact Classical.not_not.1 fun h => by rw [find?_eq_none_iff.2 h] at hd; cases hd
    have := hpos id hmem
    omega
  refine ⟨hok, ?_⟩
  rintro ⟨unrest, herror⟩
  by_contra hnone
  rw [hok fun id hid => hnone ⟨id, hid⟩] at herror
  cases herror

/-- A ripple counter of two bits, declared back to front. -/
def rippleCounter : Circuit :=
  assemble 0
    [.device ⟨3⟩ (.gate .and) none, .device ⟨2⟩ .dtype none, .device ⟨1⟩ .dtype none,
      .device ⟨0⟩ .clock (some 1), .wire ⟨⟨0⟩, .out⟩ ⟨1⟩ .clk, .wire ⟨⟨1⟩, .qbar⟩ ⟨1⟩ .data,
      .wire ⟨⟨1⟩, .qbar⟩ ⟨2⟩ .clk, .wire ⟨⟨2⟩, .qbar⟩ ⟨2⟩ .data, .wire ⟨⟨1⟩, .q⟩ ⟨3⟩ (.gate 1),
      .wire ⟨⟨2⟩, .q⟩ ⟨3⟩ (.gate 2)]

/-- A gate that inverts its own output. -/
def inverterRing : Circuit :=
  assemble 0 [.device ⟨0⟩ (.gate .nand) (some 1), .wire ⟨⟨0⟩, .out⟩ ⟨0⟩ (.gate 1)]

/-- The counter comes to rest although no pass is granted to it; the ring does not, and has a
loop. -/
theorem rippleCounter_cycle_ok_inverterRing_loop :
    rippleCounter.Assembled ∧ rippleCounter.Loopless .triggering ∧
      rippleCounter.cycle.1 = .ok () ∧ inverterRing.Assembled ∧
      inverterRing.cycle.1 = .error (.outputs 2) ∧
      ∃ id, Relation.TransGen (inverterRing.Feeds .triggering) id id := by
  have hcounter : rippleCounter.Loopless .triggering :=
    loopless_of_drivers NameId.index (by decide)
  have hring : inverterRing.cycle.1 = .error (.outputs 2) := by rfl
  have hassembled : rippleCounter.Assembled := assembled_assemble _ _
  have hassembled' : inverterRing.Assembled := assembled_assemble _ _
  exact ⟨hassembled, hcounter, (cycle_ok_of_loopless hassembled).1 hcounter, hassembled', hring,
    (cycle_ok_of_loopless hassembled').2 ⟨_, hring⟩⟩

end Breadboard.Circuit
