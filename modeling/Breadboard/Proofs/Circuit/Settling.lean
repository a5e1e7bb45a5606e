import Breadboard.Proofs.Circuit.Wiring
import Mathlib.Data.Finset.Card
import Mathlib.Data.Finset.Dedup

/-!
# Settling

A device is settled when refreshing it changes nothing. A pass refreshes every device once, in
place, so a device that has settled may be unsettled again by a later one; what is settled for
good is a set of devices that is closed under its own dependencies.

* `pass_eq_self_iff`: a pass changes nothing exactly when every device is settled.
* `find?_settleWithin_of_settled`: settling does not touch a settled set of devices that is
  closed under its dependencies.
* `settle_eq_true`: without a loop among the inputs that act at once, settling succeeds within
  its bound from every state.
-/
namespace Breadboard.Circuit

/-- Refreshing the device changes nothing. -/
def Settled (c : Circuit) (id : NameId) : Prop :=
  ∀ d, c.find? id = some d → d.logic.refresh c.read = d.logic

variable {c : Circuit} {id x : NameId}

/-! ## One refresh -/

theorem find?_refresh_of_ne (h : id ≠ x) : (c.refresh x).find? id = c.find? id := by
  rw [refresh, find?_modify, if_neg h]

theorem find?_refresh_self {d : Device} (h : c.find? x = some d) :
    (c.refresh x).find? x = some (d.mapLogic (·.refresh c.read)) := by
  rw [refresh, find?_modify, if_pos rfl, h, Option.map_some]

theorem refresh_eq_self (hn : c.ids.Nodup) (h : c.Settled x) : c.refresh x = c := by
  refine ext_find? hn (sameShape_refresh c x) fun id _ => ?_
  by_cases hid : id = x
  · subst hid
    cases hd : c.find? id with
    | none => rw [refresh, find?_modify, hd, Option.map_none, ite_self]
    | some d => rw [find?_refresh_self hd, Device.mapLogic, h d hd]
  · exact find?_refresh_of_ne hid

theorem settled_of_find?_refresh (h : (c.refresh x).find? x = c.find? x) : c.Settled x := by
  intro d hd
  rw [find?_refresh_self hd, hd] at h
  exact congrArg Device.logic (Option.some.inj h)

/-- What a device senses is the same before and after another one is refreshed. -/
theorem read_refresh_of_not_feeds {d : Device} (hd : c.find? id = some d)
    (hx : ¬ c.Feeds .asynchronous x id) {t : Option Terminal}
    (ht : t ∈ Dependency.asynchronous.drivers d.logic) : (c.refresh x).read t = c.read t := by
  refine read_congr fun s hs => output?_congr (find?_refresh_of_ne ?_)
  rintro rfl
  exact hx ⟨d, hd, s, hs ▸ ht, rfl⟩

theorem Settled.refresh_of_ne (h : c.Settled id) (hne : id ≠ x)
    (hx : ¬ c.Feeds .asynchronous x id) : (c.refresh x).Settled id := by
  intro d hd
  rw [find?_refresh_of_ne hne] at hd
  rw [Logic.refresh_congr fun t ht => read_refresh_of_not_feeds hd hx ht]
  exact h d hd

/-- A device that does not sense itself is settled once it is refreshed. -/
theorem settled_refresh_self (hx : ¬ c.Feeds .asynchronous x x) : (c.refresh x).Settled x := by
  intro e he
  cases hd : c.find? x with
  | none => rw [refresh, find?_modify, hd, Option.map_none, ite_self] at he; cases he
  | some d =>
    rw [find?_refresh_self hd] at he
    obtain rfl := Option.some.inj he
    have hdrivers := Dependency.asynchronous.drivers_of_bare_eq (d.logic.bare_refresh c.read)
    have hread : ∀ t ∈ Dependency.asynchronous.drivers (d.logic.refresh c.read),
        (c.refresh x).read t = c.read t := by
      intro t ht
      rw [hdrivers] at ht
      exact read_refresh_of_not_feeds hd hx ht
    show (d.logic.refresh c.read).refresh (c.refresh x).read = d.logic.refresh c.read
    rw [Logic.refresh_congr hread, Logic.refresh_refresh]

/-! ## A pass -/

theorem find?_foldl_refresh_of_notMem {ids : List NameId} (h : id ∉ ids) :
    (ids.foldl refresh c).find? id = c.find? id := by
  induction ids generalizing c with
  | nil => rfl
  | cons x ids ih =>
    rw [List.mem_cons, not_or] at h
    rw [List.foldl_cons, ih h.2, find?_refresh_of_ne h.1]

theorem foldl_refresh_eq_self (hn : c.ids.Nodup) {ids : List NameId}
    (h : ∀ id ∈ ids, c.Settled id) : ids.foldl refresh c = c := by
  induction ids with
  | nil => rfl
  | cons x ids ih =>
    rw [List.foldl_cons, refresh_eq_self hn (h x List.mem_cons_self)]
    exact ih fun id hid => h id (List.mem_cons_of_mem _ hid)

/-- Each device is refreshed only once, so none can change and change back. -/
theorem settled_of_foldl_refresh_eq_self (hn : c.ids.Nodup) {ids : List NameId}
    (hids : ids.Nodup) (h : ids.foldl refresh c = c) : ∀ id ∈ ids, c.Settled id := by
  induction ids with
  | nil => simp
  | cons x ids ih =>
    obtain ⟨hx, hids⟩ := List.nodup_cons.1 hids
    rw [List.foldl_cons] at h
    have hsettled : c.Settled x := by
      refine settled_of_find?_refresh ?_
      rw [← find?_foldl_refresh_of_notMem hx, h]
    rw [refresh_eq_self hn hsettled] at h
    intro id hid
    rcases List.mem_cons.1 hid with rfl | hid
    · exact hsettled
    · exact ih hids h id hid

theorem pass_eq_self_iff (hn : c.ids.Nodup) : c.pass = c ↔ ∀ id ∈ c.ids, c.Settled id :=
  ⟨settled_of_foldl_refresh_eq_self hn hn, foldl_refresh_eq_self hn⟩

/-! ## Settled for good -/

/-- A set of devices that senses nothing outside of it. -/
def Closed (c : Circuit) (S : NameId → Prop) : Prop :=
  ∀ a b, c.Feeds .asynchronous a b → S b → S a

theorem Closed.of_bare_eq {c c' : Circuit} (h : c'.bare = c.bare) {S : NameId → Prop}
    (hS : c.Closed S) : c'.Closed S :=
  fun a b hab => hS a b (feeds_of_bare_eq h hab)

theorem settled_refresh_of_closed {S : NameId → Prop} (hn : c.ids.Nodup) (hS : c.Closed S)
    (h : ∀ id, S id → c.Settled id) (x : NameId) : ∀ id, S id → (c.refresh x).Settled id := by
  intro id hid
  by_cases hx : S x
  · rw [refresh_eq_self hn (h x hx)]
    exact h id hid
  · have hne : id ≠ x := fun he => hx (he ▸ hid)
    exact (h id hid).refresh_of_ne hne fun hfeeds => hx (hS x id hfeeds hid)

theorem find?_foldl_refresh_of_settled {S : NameId → Prop} (hn : c.ids.Nodup)
    (hS : c.Closed S) (h : ∀ id, S id → c.Settled id) (ids : List NameId) :
    ∀ id, S id → (ids.foldl refresh c).find? id = c.find? id := by
  induction ids generalizing c with
  | nil => exact fun _ _ => rfl
  | cons x ids ih =>
    intro id hid
    have hn' : (c.refresh x).ids.Nodup := by rwa [ids_refresh]
    have hS' : (c.refresh x).Closed S := hS.of_bare_eq (bare_refresh c x)
    rw [List.foldl_cons, ih hn' hS' (settled_refresh_of_closed hn hS h x) id hid]
    by_cases hne : id = x
    · subst hne
      rw [refresh_eq_self hn (h id hid)]
    · exact find?_refresh_of_ne hne

/-- Settledness depends on the device itself and on what it senses. -/
theorem Settled.congr {c' : Circuit} (h : c.Settled id) (hid : c'.find? id = c.find? id)
    (hfeeds : ∀ a, c.Feeds .asynchronous a id → c'.find? a = c.find? a) : c'.Settled id := by
  intro d hd
  rw [hid] at hd
  have hread : ∀ t ∈ Dependency.asynchronous.drivers d.logic, c'.read t = c.read t :=
    fun t ht => read_congr fun s hs => output?_congr (hfeeds _ ⟨d, hd, s, hs ▸ ht, rfl⟩)
  rw [Logic.refresh_congr hread]
  exact h d hd

/-- Settling does not touch a settled set of devices that is closed under its dependencies. -/
theorem find?_settleWithin_of_settled {S : NameId → Prop} (n : Nat) (hn : c.ids.Nodup)
    (hS : c.Closed S) (h : ∀ id, S id → c.Settled id) :
    ∀ id, S id → (settleWithin n c).2.find? id = c.find? id := by
  induction n generalizing c with
  | zero => exact fun _ _ => rfl
  | succ n ih =>
    intro id hid
    have hpass : ∀ a, S a → c.pass.find? a = c.find? a :=
      find?_foldl_refresh_of_settled hn hS h c.ids
    simp only [settleWithin]
    split
    · exact hpass id hid
    · have hn' : c.pass.ids.Nodup := by rwa [ids_pass]
      have h' : ∀ a, S a → c.pass.Settled a := fun a ha =>
        (h a ha).congr (hpass a ha) fun b hb => hpass b (hS b a hb ha)
      rw [ih hn' (hS.of_bare_eq (bare_pass c)) h' id hid, hpass id hid]

/-! ## What settling keeps -/

section
variable {β : Type} {g : Logic → β}

theorem agreeOn_refresh (hg : ∀ read l, g (Logic.refresh read l) = g l) (c : Circuit)
    (x : NameId) : AgreeOn g c (c.refresh x) := by
  intro id
  by_cases hid : id = x
  · subst hid
    cases hd : c.find? id with
    | none => rw [refresh, find?_modify, hd, Option.map_none, ite_self]
    | some d => simp only [find?_refresh_self hd, Option.map_some, Device.mapLogic, hg]
  · rw [find?_refresh_of_ne hid]

theorem agreeOn_settleWithin (hg : ∀ read l, g (Logic.refresh read l) = g l) (n : Nat)
    (c : Circuit) : AgreeOn g c (settleWithin n c).2 :=
  settleWithin_preserves (P := AgreeOn g c) (fun c' x h => h.trans (agreeOn_refresh hg c' x)) n
    fun _ => rfl

theorem sameShape_settle {c' : Circuit} (h : c.settle = (true, c')) : SameShape c c' := by
  have hshape := sameShape_settleWithin c.settleBound c
  rwa [← settle, h] at hshape

theorem agreeOn_settle {c' : Circuit} (hg : ∀ read l, g (Logic.refresh read l) = g l)
    (h : c.settle = (true, c')) : AgreeOn g c c' := by
  have hagree := agreeOn_settleWithin hg c.settleBound c
  rwa [← settle, h] at hagree

end

/-! ## Ranks -/

/-- A relation on a finite set that never leads back to where it started has a rank that grows
along it. The rank counts the members that lead to a place, that place included. -/
theorem exists_rank {α : Type} (r : α → α → Prop) (members : List α)
    (htarget : ∀ a b, r a b → b ∈ members) (hacyclic : ∀ a, ¬ Relation.TransGen r a a) :
    ∃ rank : α → Nat, (∀ a b, r a b → rank a < rank b) ∧ (∀ a ∈ members, 0 < rank a) ∧
      ∀ a, rank a ≤ members.length := by
  classical
  let below (a : α) : Finset α :=
    members.toFinset.filter fun b => b = a ∨ Relation.TransGen r b a
  refine ⟨fun a => (below a).card, fun a b hab => ?_, fun a ha => ?_, fun a => ?_⟩
  · refine Finset.card_lt_card (Finset.ssubset_iff_of_subset ?_ |>.2 ⟨b, ?_, ?_⟩)
    · intro x hx
      obtain ⟨hmem, hxa⟩ := Finset.mem_filter.1 hx
      refine Finset.mem_filter.2 ⟨hmem, Or.inr ?_⟩
      rcases hxa with rfl | hxa
      · exact .single hab
      · exact hxa.tail hab
    · exact Finset.mem_filter.2 ⟨List.mem_toFinset.2 (htarget a b hab), Or.inl rfl⟩
    · intro hb
      rcases (Finset.mem_filter.1 hb).2 with rfl | hba
      · exact hacyclic b (.single hab)
      · exact hacyclic b (hba.tail hab)
  · exact Finset.card_pos.2 ⟨a, Finset.mem_filter.2 ⟨List.mem_toFinset.2 ha, Or.inl rfl⟩⟩
  · exact (Finset.card_filter_le _ _).trans (List.toFinset_card_le members)

/-- Ranks of the devices from one up to the size of the circuit, which grow along the
dependencies. -/
theorem Loopless.exists_rank {k : Dependency} (h : c.Loopless k) :
    ∃ rank : NameId → Nat, (∀ a b, c.Feeds k a b → rank a < rank b) ∧
      (∀ a ∈ c.ids, 0 < rank a) ∧ ∀ a, rank a ≤ c.size := by
  have := Circuit.exists_rank (c.Feeds k) c.ids (fun _ _ => mem_ids_of_feeds) h
  rwa [← size_eq_length_ids] at this

/-- Where dependencies only lead from lower to higher ranks there is no loop. -/
theorem loopless_of_rank {k : Dependency} {rank : NameId → Nat}
    (hrank : ∀ a b, c.Feeds k a b → rank a < rank b) : c.Loopless k := by
  have hpath : ∀ a b, Relation.TransGen (c.Feeds k) a b → rank a < rank b := by
    intro a b hab
    induction hab with
    | single h => exact hrank _ _ h
    | tail _ h ih => exact Nat.lt_trans ih (hrank _ _ h)
  exact fun id hid => Nat.lt_irrefl _ (hpath id id hid)

theorem loopless_of_drivers {k : Dependency} (rank : NameId → Nat)
    (h : ∀ d ∈ c.devices, ∀ t ∈ (k.drivers d.logic).reduceOption, rank t.device < rank d.id) :
    c.Loopless k := by
  have hrank : ∀ a b, c.Feeds k a b → rank a < rank b := by
    rintro a b ⟨d, hd, t, ht, rfl⟩
    rw [← id_of_find? hd]
    exact h d (List.mem_of_find?_eq_some hd) t (List.reduceOption_mem_iff.2 ht)
  exact loopless_of_rank hrank

/-! ## Settling without loops -/

section
variable {rank : NameId → Nat}

/-- One pass settles the devices of the next rank, once those below are settled. -/
theorem settled_foldl_refresh_of_rank {k : Nat} (hn : c.ids.Nodup)
    (hrank : ∀ a b, c.Feeds .asynchronous a b → rank a < rank b)
    (h : ∀ id, rank id < k → c.Settled id) (ids : List NameId) :
    ∀ id, rank id ≤ k → (c.Settled id ∨ id ∈ ids) → (ids.foldl refresh c).Settled id := by
  induction ids generalizing c with
  | nil => exact fun _ _ hid => hid.resolve_right List.not_mem_nil
  | cons x ids ih =>
    intro id hid hor
    have hn' : (c.refresh x).ids.Nodup := by rwa [ids_refresh]
    have hrank' : ∀ a b, (c.refresh x).Feeds .asynchronous a b → rank a < rank b :=
      fun a b hab => hrank a b (feeds_of_bare_eq (bare_refresh c x) hab)
    have hclosed : c.Closed (rank · < k) := fun a b hab hb =>
      Nat.lt_trans (hrank a b hab) hb
    have hself : ¬ c.Feeds .asynchronous x x := fun hxx => Nat.lt_irrefl _ (hrank x x hxx)
    rw [List.foldl_cons]
    refine ih hn' hrank' (settled_refresh_of_closed hn hclosed h x) id hid ?_
    by_cases hne : id = x
    · subst hne
      exact Or.inl (settled_refresh_self hself)
    rcases hor with hs | hmem
    · -- a refreshed device of lower rank does not change, one of higher rank is not sensed
      left
      by_cases hx : rank x < k
      · rwa [refresh_eq_self hn (h x hx)]
      · refine hs.refresh_of_ne hne fun hfeeds => hx ?_
        exact Nat.lt_of_lt_of_le (hrank x id hfeeds) hid
    · exact Or.inr ((List.mem_cons.1 hmem).resolve_left hne)

theorem settled_of_notMem (h : id ∉ c.ids) : c.Settled id := by
  intro d hd
  rw [find?_eq_none_iff.2 h] at hd
  cases hd

/-- Settling takes one pass for each rank that is left, and one more that changes nothing. -/
theorem settleWithin_eq_true_of_rank {k n m : Nat} (hn : c.ids.Nodup)
    (hrank : ∀ a b, c.Feeds .asynchronous a b → rank a < rank b) (hmax : ∀ a, rank a ≤ n)
    (h : ∀ id, rank id < k → c.Settled id) (hk : k ≤ n + 1) (hm : n + 1 - k < m) :
    (settleWithin m c).1 = true := by
  induction m generalizing c k with
  | zero => omega
  | succ m ih =>
    simp only [settleWithin]
    split
    · rfl
    · rename_i hchanged
      have hkn : k ≤ n := by
        by_contra hlt
        refine hchanged ((pass_eq_self_iff hn).2 fun id _ => h id ?_)
        have := hmax id
        omega
      have hn' : c.pass.ids.Nodup := by rwa [ids_pass]
      have hrank' : ∀ a b, c.pass.Feeds .asynchronous a b → rank a < rank b :=
        fun a b hab => hrank a b (feeds_of_bare_eq (bare_pass c) hab)
      refine ih (k := k + 1) hn' hrank' (fun id hid => ?_) (by omega) (by omega)
      refine settled_foldl_refresh_of_rank hn hrank h c.ids id (by omega) ?_
      by_cases hmem : id ∈ c.ids
      · exact Or.inr hmem
      · exact Or.inl (settled_of_notMem hmem)

end

/-- Without a loop among the inputs that act at once, settling succeeds from every state. -/
theorem settle_eq_true (hn : c.ids.Nodup) (hl : c.Loopless .asynchronous) :
    c.settle.1 = true := by
  obtain ⟨rank, hrank, hpos, hmax⟩ := hl.exists_rank
  have hbound := c.lt_settleBound
  refine settleWithin_eq_true_of_rank (k := 1) hn hrank hmax (fun id hid => ?_) (by omega)
    (by omega)
  refine settled_of_notMem fun hmem => ?_
  have := hpos id hmem
  omega

theorem exists_settle (hn : c.ids.Nodup) (hl : c.Loopless .asynchronous) :
    ∃ c', c.settle = (true, c') :=
  ⟨c.settle.2, Prod.ext (settle_eq_true hn hl) rfl⟩

end Breadboard.Circuit
