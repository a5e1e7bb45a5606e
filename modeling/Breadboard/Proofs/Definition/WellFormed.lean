import Breadboard.Proofs.Definition.Lines

/-!
# Well-formed definitions, line by line

A definition is well-formed if each line of it may come after the lines before it. The rules of
`SyntaxTree.WellFormed` speak of the definition as a whole: of all names that it declares, all
inputs that it drives and all outputs that it monitors.

* `SyntaxTree.wellFormed_iff`: the two views agree.
-/
namespace Breadboard.Definition

/-! ## The lines of one section -/

namespace Layout

variable {k : Layout}

theorem admits_devices_iff {ds : List DeviceDecl} (hk : (k.parts.map (·.name)).Nodup) :
    k.Admits (ds.map .device) ↔
      (∀ d ∈ ds, d.Suits) ∧ (k.parts.map (·.name) ++ ds.flatMap (·.names)).Nodup := by
  induction ds generalizing k with
  | nil => simpa [Admits] using hk
  | cons d ds ih =>
    have hnames (h : d.Suits) :
        (k.addParts d.parts).parts.map (·.name) = k.parts.map (·.name) ++ d.names := by
      obtain ⟨l, hl⟩ := h.accepted
      rw [addParts, List.map_append, DeviceDecl.parts_eq hl, List.map_map]
      simp [Function.comp_def]
    rw [List.map_cons, Admits, Line.add_layout_device, List.forall_mem_cons, List.flatMap_cons,
      ← List.append_assoc]
    constructor
    · rintro ⟨⟨hsuits, hnodup⟩, hrest⟩
      obtain ⟨hall, hnodup'⟩ := (ih (by rwa [hnames hsuits])).1 hrest
      rw [hnames hsuits] at hnodup'
      exact ⟨⟨hsuits, hall⟩, hnodup'⟩
    · rintro ⟨⟨hsuits, hall⟩, hnodup⟩
      have hnodup' := (List.nodup_append'.1 hnodup).1
      refine ⟨⟨hsuits, hnodup'⟩, (ih (by rwa [hnames hsuits])).2 ⟨hall, ?_⟩⟩
      rwa [hnames hsuits]

theorem admits_connections_iff {cs : List ConnectionDecl} (hk : (k.wires.map Wire.place).Nodup) :
    k.Admits (cs.map .connection) ↔
      (∀ c ∈ cs, c.Fits k.parts ∧ ∀ s ∈ c.sources, s.IsOutput k.parts) ∧
        ((k.wires ++ cs.flatMap (·.wires)).map Wire.place).Nodup := by
  induction cs generalizing k with
  | nil => simpa [Admits] using hk
  | cons c cs ih =>
    rw [List.map_cons, Admits, Line.add_layout_connection, List.forall_mem_cons,
      List.flatMap_cons, ← List.append_assoc]
    constructor
    · rintro ⟨⟨hfits, hsources, hnodup⟩, hrest⟩
      obtain ⟨hall, hnodup'⟩ := (ih hnodup).1 hrest
      exact ⟨⟨⟨hfits, hsources⟩, hall⟩, hnodup'⟩
    · rintro ⟨⟨⟨hfits, hsources⟩, hall⟩, hnodup⟩
      have hnodup' : ((k.wires ++ c.wires).map Wire.place).Nodup := by
        rw [List.map_append] at hnodup
        exact (List.nodup_append'.1 hnodup).1
      exact ⟨⟨hfits, hsources, hnodup'⟩, (ih hnodup').2 ⟨hall, hnodup⟩⟩

theorem admits_monitors_iff {ms : List MonitorDecl} (hk : k.signals.Nodup) :
    k.Admits (ms.map .monitor) ↔
      (∀ m ∈ ms, ∀ s ∈ m.signals, s.IsOutput k.parts) ∧
        (k.signals ++ ms.flatMap (·.signals)).Nodup := by
  induction ms generalizing k with
  | nil => simpa [Admits] using hk
  | cons m ms ih =>
    rw [List.map_cons, Admits, Line.add_layout_monitor, List.forall_mem_cons, List.flatMap_cons,
      ← List.append_assoc]
    constructor
    · rintro ⟨⟨hsignals, hnodup⟩, hrest⟩
      obtain ⟨hall, hnodup'⟩ := (ih hnodup).1 hrest
      exact ⟨⟨hsignals, hall⟩, hnodup'⟩
    · rintro ⟨⟨hsignals, hall⟩, hnodup⟩
      have hnodup' := (List.nodup_append'.1 hnodup).1
      exact ⟨⟨hsignals, hnodup'⟩, (ih hnodup').2 ⟨hall, hnodup⟩⟩

end Layout

/-! ## Whole definitions -/

namespace SyntaxTree

variable {t : SyntaxTree} {limit : Nat}

theorem flatMap_none {α β : Type} (xs : List α) : xs.flatMap (fun _ => ([] : List β)) = [] :=
  List.flatMap_eq_nil_iff.2 fun _ _ => rfl

theorem layout_eq (t : SyntaxTree) :
    t.layout = ⟨t.devices.flatMap (·.parts), t.connections.flatMap (·.wires),
      t.monitors.flatMap (·.signals)⟩ := by
  simp [layout, Layout.ofLines, Section.all, lines, List.flatMap_map, Line.layout, flatMap_none]

/-- A definition is well-formed if it keeps to the limit and each line of it may come after those
before it. -/
theorem wellFormed_iff :
    t.WellFormed limit ↔
      (∀ s, (t.lines s).length ≤ limit) ∧ Layout.Admits {} (Section.all.flatMap t.lines) := by
  have hall : Section.all.flatMap t.lines =
      t.devices.map .device ++ (t.connections.map .connection ++ t.monitors.map .monitor) := by
    simp [Section.all, lines]
  have hdevices : Layout.add {} (.ofLines (t.devices.map .device)) =
      { parts := t.layout.parts } := by
    simp [Layout.add, Layout.ofLines, layout_eq, List.flatMap_map, Line.layout, flatMap_none]
  have hconnections : Layout.add { parts := t.layout.parts }
      (.ofLines (t.connections.map .connection)) =
      { parts := t.layout.parts, wires := t.layout.wires } := by
    simp [Layout.add, Layout.ofLines, layout_eq, List.flatMap_map, Line.layout, flatMap_none]
  have hadmits : Layout.Admits {} (Section.all.flatMap t.lines) ↔
      ((∀ d ∈ t.devices, d.Suits) ∧ (t.devices.flatMap (·.names)).Nodup) ∧
      ((∀ c ∈ t.connections, c.Fits t.layout.parts ∧ ∀ s ∈ c.sources, s.IsOutput t.layout.parts) ∧
        (t.layout.wires.map Wire.place).Nodup) ∧
      (∀ m ∈ t.monitors, ∀ s ∈ m.signals, s.IsOutput t.layout.parts) ∧
        t.layout.signals.Nodup := by
    rw [hall, Layout.admits_append_iff, Layout.admits_append_iff, hdevices, hconnections,
      Layout.admits_devices_iff (by simp), Layout.admits_connections_iff (by simp),
      Layout.admits_monitors_iff (by simp)]
    simp [layout_eq]
  rw [hadmits]
  constructor
  · intro h
    exact ⟨h.lines_le, ⟨h.suits, h.nodup_names⟩,
      ⟨fun c hc => ⟨h.fits c hc, h.sources c hc⟩, h.nodup_places⟩, h.signals, h.nodup_signals⟩
  · rintro ⟨hlines, ⟨hsuits, hnames⟩, ⟨hconns, hplaces⟩, hsignals, hnodup⟩
    exact ⟨hlines, hsuits, hnames, fun c hc => (hconns c hc).1, fun c hc => (hconns c hc).2,
      hplaces, hsignals, hnodup⟩

end SyntaxTree

end Breadboard.Definition
