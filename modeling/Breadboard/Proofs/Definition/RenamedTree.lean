import Breadboard.Proofs.Circuit.Relabelling
import Breadboard.Proofs.Definition.RenamedText
import Mathlib.Data.List.Find
import Mathlib.Data.Set.Function

/-!
# Definitions with other names in them

`SyntaxTree.rename r` is a definition with other words in place of the names of its devices. A text
with other names derives from it, and it obeys the rules if `r` keeps the names apart. The board
that it describes is the one of the definition with other numbers for the devices.

* `SyntaxTree.Derives.rename`: the text with other names derives from the definition with them.
* `SyntaxTree.WellFormed.rename`: the rules do not depend on what the devices are called.
* `Layout.circuit_rename`, `Layout.probes_rename`: the circuit and the probes are relabelled.
-/
namespace Breadboard

/-- Connecting a part and then changing the numbers is connecting it by the new numbers. -/
theorem Logic.relabel_wired (g : NameId → NameId) (l : Logic)
    (driver? : InputPin → Option Terminal) :
    (l.wired driver?).relabel g = l.wired fun pin => (driver? pin).map (Terminal.relabel g) := by
  cases l with
  | gate x =>
    simp only [wired, relabel, gate.injEq, Gate.mk.injEq, true_and, and_true]
    exact List.ext_getElem (by simp) fun i hi hi' => by simp
  | dtype | switch | clock => rfl

namespace Definition

variable {r : String → String}

/-! ## Renamed lines -/

def Signal.rename (r : String → String) (s : Signal) : Signal := { s with device := r s.device }

def DeviceDecl.rename (r : String → String) (d : DeviceDecl) : DeviceDecl :=
  { d with names := d.names.map r, names_ne_nil := by simpa using d.names_ne_nil }

def ConnectionDecl.rename (r : String → String) (c : ConnectionDecl) : ConnectionDecl where
  target := c.target.rename r
  sources := c.sources.map (Signal.rename r)
  sources_ne_nil := by simpa using c.sources_ne_nil

def MonitorDecl.rename (r : String → String) (m : MonitorDecl) : MonitorDecl where
  signals := m.signals.map (Signal.rename r)
  signals_ne_nil := by simpa using m.signals_ne_nil

/-- The definition with other names for its devices. -/
def SyntaxTree.rename (r : String → String) (t : SyntaxTree) : SyntaxTree where
  devices := t.devices.map (DeviceDecl.rename r)
  connections := t.connections.map (ConnectionDecl.rename r)
  monitors := t.monitors.map (MonitorDecl.rename r)

/-! ## Symbols -/

/-- Renaming turns the symbols into others, whatever is behind them. -/
def Becomes (r : String → String) (ss ss' : List Symbol) : Prop :=
  ∀ rest, renameSymbols r false (ss ++ rest) = ss' ++ renameSymbols r false rest

namespace Becomes

theorem append {ss ss' us us' : List Symbol} (h : Becomes r ss ss') (h' : Becomes r us us') :
    Becomes r (ss ++ us) (ss' ++ us') := by
  intro rest
  rw [List.append_assoc, h, h', List.append_assoc]

theorem flatMap {α : Type} {f f' : α → List Symbol} {xs : List α}
    (h : ∀ x ∈ xs, Becomes r (f x) (f' x)) : Becomes r (xs.flatMap f) (xs.flatMap f') := by
  induction xs with
  | nil => exact fun _ => rfl
  | cons x xs ih =>
    obtain ⟨hx, hxs⟩ := List.forall_mem_cons.1 h
    rw [List.flatMap_cons, List.flatMap_cons]
    exact hx.append (ih hxs)

theorem separated {α : Type} {symbols : α → List Symbol} {f : α → α}
    (h : ∀ x, Becomes r (symbols x) (symbols (f x))) (xs : List α) :
    Becomes r (separated symbols xs) (Definition.separated symbols (xs.map f)) := by
  induction xs with
  | nil => exact fun _ => rfl
  | cons x xs ih =>
    by_cases hxs : xs = []
    · subst hxs
      exact h x
    · have hcomma : Becomes r [.mark .comma] [.mark .comma] := fun _ => rfl
      rw [List.map_cons, separated_cons hxs, separated_cons (by simpa using hxs)]
      exact (h x).append (hcomma.append ih)

theorem name (name : String) : Becomes r [.name name] [.name (r name)] := fun _ => rfl

theorem signal (s : Signal) : Becomes r s.symbols (s.rename r).symbols := by
  intro rest
  cases s with
  | mk device pin => cases pin <;> rfl

theorem parameter (parameter : Option String) :
    Becomes r (parameterSymbols parameter) (parameterSymbols parameter) := by
  cases parameter <;> exact fun _ => rfl

theorem semicolon : Becomes r [.mark .semicolon] [.mark .semicolon] := fun _ => rfl

theorem device (d : DeviceDecl) : Becomes r d.symbols (d.rename r).symbols := by
  have hkind : Becomes r [.mark .equal, .keyword d.kind] [.mark .equal, .keyword d.kind] :=
    fun _ => rfl
  exact ((separated name d.names).append (hkind.append (parameter d.parameter))).append semicolon

theorem connection (c : ConnectionDecl) : Becomes r c.symbols (c.rename r).symbols := by
  have hequal : Becomes r [.mark .equal] [.mark .equal] := fun _ => rfl
  exact ((signal c.target).append (hequal.append (separated signal c.sources))).append semicolon

theorem monitor (m : MonitorDecl) : Becomes r m.symbols (m.rename r).symbols :=
  (separated signal m.signals).append semicolon

/-- The heading is not a name: it stands right behind an opening square bracket. -/
theorem header (s : Section) : Becomes r [.mark .openSquare, .heading s, .mark .closeSquare]
    [.mark .openSquare, .heading s, .mark .closeSquare] := fun _ => rfl

end Becomes

namespace SyntaxTree

variable {t : SyntaxTree} {source : String} {limit : Nat}

theorem symbols_rename (r : String → String) (t : SyntaxTree) :
    (t.rename r).symbols = renameSymbols r false t.symbols := by
  have hlines (s : Section) :
      Becomes r (s.symbols (t.lines s)) (s.symbols ((t.rename r).lines s)) := by
    refine (Becomes.header s).append ?_
    cases s <;> simp only [lines, rename, List.flatMap_map]
    · exact .flatMap fun d _ => .device d
    · exact .flatMap fun c _ => .connection c
    · exact .flatMap fun m _ => .monitor m
  have hall : Becomes r t.symbols (t.rename r).symbols := .flatMap fun s _ => hlines s
  simpa [renameSymbols] using (hall []).symm

/-- A text with other names derives from the definition with other names. -/
theorem Derives.rename (hr : Renames r) (h : t.Derives source) :
    (t.rename r).Derives (renameSource r source) where
  strays := strays_renameSource hr h.strays
  symbols := by rw [symbols_renameSource hr, h.symbols, symbols_rename]

end SyntaxTree

/-! ## What is declared -/

def Part.rename (r : String → String) (p : Part) : Part := { p with name := r p.name }

def Wire.rename (r : String → String) (w : Wire) : Wire :=
  { w with target := r w.target, source := w.source.rename r }

def Layout.rename (r : String → String) (k : Layout) : Layout where
  parts := k.parts.map (Part.rename r)
  wires := k.wires.map (Wire.rename r)
  signals := k.signals.map (Signal.rename r)

theorem DeviceDecl.parts_rename (d : DeviceDecl) :
    (d.rename r).parts = d.parts.map (Part.rename r) := by
  unfold parts
  rw [show (d.rename r).kind = d.kind from rfl, show (d.rename r).parameter = d.parameter from rfl]
  split
  · simp [DeviceDecl.rename, Part.rename]
  · rfl

theorem wiresFrom_rename (target : String) (first : InputPin) (index : Nat)
    (sources : List Signal) :
    wiresFrom (r target) first index (sources.map (Signal.rename r)) =
      (wiresFrom target first index sources).map (Wire.rename r) := by
  induction sources generalizing index with
  | nil => rfl
  | cons source sources ih =>
    rw [List.map_cons, wiresFrom, ih]
    rfl

namespace SyntaxTree

variable {t : SyntaxTree} {limit : Nat}

theorem layout_rename (r : String → String) (t : SyntaxTree) :
    (t.rename r).layout = t.layout.rename r := by
  have hwires (c : ConnectionDecl) : (c.rename r).wires = c.wires.map (Wire.rename r) :=
    wiresFrom_rename _ _ _ _
  simp only [layout_eq, Layout.rename, rename, List.flatMap_map, List.map_flatMap,
    DeviceDecl.parts_rename, hwires]
  rfl

end SyntaxTree

/-! ## The rules -/

theorem Signal.IsOutput.rename {parts : List Part} {s : Signal} (h : s.IsOutput parts) :
    (s.rename r).IsOutput (parts.map (Part.rename r)) := by
  obtain ⟨p, hp, hname, hpin⟩ := h
  exact ⟨p.rename r, List.mem_map_of_mem hp, congrArg r hname, hpin⟩

theorem Signal.IsOutput.device_mem {parts : List Part} {s : Signal} (h : s.IsOutput parts) :
    s.device ∈ parts.map (·.name) := by
  obtain ⟨p, hp, hname, -⟩ := h
  exact List.mem_map.2 ⟨p, hp, hname⟩

theorem ConnectionDecl.Fits.rename {parts : List Part} {c : ConnectionDecl} (h : c.Fits parts) :
    (c.rename r).Fits (parts.map (Part.rename r)) := by
  obtain ⟨p, hp, hname, first, hfirst, htakes⟩ := h
  refine ⟨p.rename r, List.mem_map_of_mem hp, congrArg r hname, first, hfirst, ?_⟩
  rwa [show (c.rename r).sources.length = c.sources.length from List.length_map _]

/-- All that a layout connects and monitors are parts of it. -/
structure Layout.Closed (k : Layout) : Prop where
  targets : ∀ w ∈ k.wires, w.target ∈ k.parts.map (·.name)
  sources : ∀ w ∈ k.wires, w.source.device ∈ k.parts.map (·.name)
  signals : ∀ s ∈ k.signals, s.device ∈ k.parts.map (·.name)

namespace SyntaxTree.WellFormed

variable {t : SyntaxTree} {limit : Nat}

theorem closed (ht : t.WellFormed limit) : t.layout.Closed := by
  have hwire {w : Wire} (hw : w ∈ t.layout.wires) :
      ∃ c ∈ t.connections, w.target = c.target.device ∧ w.source ∈ c.sources := by
    rw [layout_eq] at hw
    obtain ⟨c, hc, hw⟩ := List.mem_flatMap.1 hw
    exact ⟨c, hc, Line.ends_of_mem_wiresFrom hw⟩
  refine ⟨fun w hw => ?_, fun w hw => ?_, fun s hs => ?_⟩
  · obtain ⟨c, hc, htarget, -⟩ := hwire hw
    obtain ⟨p, hp, hname, -⟩ := ht.fits c hc
    exact List.mem_map.2 ⟨p, hp, hname.trans htarget.symm⟩
  · obtain ⟨c, hc, -, hsource⟩ := hwire hw
    exact (ht.sources c hc _ hsource).device_mem
  · rw [layout_eq] at hs
    obtain ⟨m, hm, hs⟩ := List.mem_flatMap.1 hs
    exact (ht.signals m hm s hs).device_mem

/-- The rules do not depend on what the devices are called. -/
theorem rename (ht : t.WellFormed limit)
    (hinj : Set.InjOn r {name | name ∈ t.layout.parts.map (·.name)}) :
    (t.rename r).WellFormed limit := by
  have hclosed := ht.closed
  have hparts : (t.rename r).layout.parts = t.layout.parts.map (Part.rename r) := by
    rw [layout_rename]
    rfl
  refine ⟨fun s => ?_, ?_, ?_, ?_, ?_, ?_, ?_, ?_⟩
  · have hlength : ((t.rename r).lines s).length = (t.lines s).length := by
      cases s <;> simp [lines, SyntaxTree.rename]
    exact hlength ▸ ht.lines_le s
  · exact List.forall_mem_map.2 fun d hd => ⟨(ht.suits d hd).fits, (ht.suits d hd).accepted⟩
  · have hnames : (t.rename r).devices.flatMap (·.names) = (t.devices.flatMap (·.names)).map r := by
      simp [SyntaxTree.rename, DeviceDecl.rename, List.flatMap_map, List.map_flatMap]
    rw [hnames]
    rw [ht.names_parts] at hinj
    exact ht.nodup_names.map_on fun a ha b hb he => hinj ha hb he
  · rw [hparts]
    exact List.forall_mem_map.2 fun c hc => (ht.fits c hc).rename
  · rw [hparts]
    exact List.forall_mem_map.2 fun c hc => List.forall_mem_map.2 fun s hs =>
      (ht.sources c hc s hs).rename
  · have hplaces : (t.rename r).layout.wires.map Wire.place =
        (t.layout.wires.map Wire.place).map fun place => (r place.1, place.2) := by
      rw [layout_rename, Layout.rename, List.map_map, List.map_map]
      rfl
    rw [hplaces]
    refine ht.nodup_places.map_on fun place hplace place' hplace' he => ?_
    obtain ⟨w, hw, rfl⟩ := List.mem_map.1 hplace
    obtain ⟨w', hw', rfl⟩ := List.mem_map.1 hplace'
    obtain ⟨htarget, hpin⟩ := Prod.mk.inj he
    exact Prod.ext (hinj (hclosed.targets w hw) (hclosed.targets w' hw') htarget) hpin
  · rw [hparts]
    exact List.forall_mem_map.2 fun m hm => List.forall_mem_map.2 fun s hs =>
      (ht.signals m hm s hs).rename
  · rw [layout_rename]
    refine ht.nodup_signals.map_on fun s hs s' hs' he => ?_
    obtain ⟨hdevice, hpin⟩ := Signal.mk.inj he
    have hsame := hinj (hclosed.signals s hs) (hclosed.signals s' hs') hdevice
    cases s
    cases s'
    exact Signal.mk.injEq .. ▸ ⟨hsame, hpin⟩

end SyntaxTree.WellFormed

/-! ## Numbers -/

/-- Other numbers: those that the second table has for the new names of some words, and numbers
beyond the second table for all else. -/
def renumber (r : String → String) (names names' : NameTable) (words : List String) (id : NameId) :
    NameId :=
  match words.find? (names.idOf · = id) with
  | some word => names'.idOf (r word)
  | none => ⟨names'.size + id.index⟩

section
variable {names names' : NameTable} {words : List String}

theorem renumber_cases (r : String → String) (names names' : NameTable) (words : List String)
    (id : NameId) :
    (∃ word ∈ words, names.idOf word = id ∧
        renumber r names names' words id = names'.idOf (r word)) ∨
      id ∉ words.map names.idOf ∧
        renumber r names names' words id = ⟨names'.size + id.index⟩ := by
  unfold renumber
  split
  · rename_i word hfind
    exact .inl ⟨word, List.mem_of_find?_eq_some hfind, by simpa using List.find?_some hfind, rfl⟩
  · rename_i hnone
    exact .inr ⟨by simpa using List.find?_eq_none.1 hnone, rfl⟩

theorem renumber_idOf (hnames : ∀ word ∈ words, word ∈ names.names) {word : String}
    (hword : word ∈ words) :
    renumber r names names' words (names.idOf word) = names'.idOf (r word) := by
  have hcases := renumber_cases r names names' words
  rcases hcases (names.idOf word) with ⟨found, hfound, hid, hnew⟩ | ⟨hnone, -⟩
  · rw [hnew, NameTable.idOf_inj (hnames found hfound) (hnames word hword) hid]
  · exact absurd (List.mem_map_of_mem hword) hnone

theorem renumber_injective (hnames' : ∀ word ∈ words, r word ∈ names'.names)
    (hinj : Set.InjOn r {word | word ∈ words}) :
    (renumber r names names' words).Injective := by
  have hbelow {word : String} (hword : word ∈ words) :
      (names'.idOf (r word)).index < names'.size :=
    NameTable.index_lt_of_query? (NameTable.query?_of_mem_names (hnames' word hword))
  intro id id' h
  have hcases := renumber_cases r names names' words
  rcases hcases id with ⟨word, hword, rfl, hnew⟩ | ⟨-, hnew⟩ <;>
    rcases hcases id' with ⟨word', hword', rfl, hnew'⟩ | ⟨-, hnew'⟩ <;>
    rw [hnew, hnew'] at h
  · rw [hinj hword hword' (NameTable.idOf_inj (hnames' word hword) (hnames' word' hword') h)]
  · have hlt := hbelow hword
    rw [h] at hlt
    exact absurd hlt (Nat.not_lt.2 (Nat.le_add_right _ _))
  · have hlt := hbelow hword'
    rw [← h] at hlt
    exact absurd hlt (Nat.not_lt.2 (Nat.le_add_right _ _))
  · cases id
    cases id'
    simpa using h

end

/-! ## The board -/

namespace Layout

variable {k : Layout} {names names' : NameTable} {g : NameId → NameId}
  (hg : ∀ name ∈ k.parts.map (·.name), g (names.idOf name) = names'.idOf (r name))
include hg

theorem terminal_rename {s : Signal} (hs : s.device ∈ k.parts.map (·.name)) :
    terminal names' (s.rename r) = (terminal names s).relabel g :=
  congrArg (Terminal.mk · s.output) (hg _ hs).symm

variable (hk : k.Closed)
include hk

theorem probes_rename : (k.rename r).probes names' = (k.probes names).relabel g := by
  simp only [probes, Layout.rename, Probes.relabel, List.map_map, Probes.mk.injEq]
  refine List.map_congr_left fun s hs => ?_
  simp only [Function.comp_apply, terminal_rename hg (hk.signals s hs)]

variable (hinj : Set.InjOn r {name | name ∈ k.parts.map (·.name)})
include hinj

theorem driver?_rename {target : String} (htarget : target ∈ k.parts.map (·.name))
    (pin : InputPin) :
    (k.rename r).driver? names' (r target) pin =
      (k.driver? names target pin).map (Terminal.relabel g) := by
  have hfind : k.wires.find? (fun w => decide ((w.rename r).place = (r target, pin))) =
      k.wires.find? (fun w => decide (w.place = (target, pin))) := by
    refine List.find?_congr fun w hw => decide_eq_decide.2 ?_
    have htargets : r w.target = r target ↔ w.target = target :=
      hinj.eq_iff (hk.targets w hw) htarget
    simp only [Wire.place, Wire.rename, Prod.mk.injEq, htargets]
  simp only [driver?, Layout.rename, List.find?_map, Function.comp_def, hfind, Option.map_map]
  refine Option.map_congr fun w hw => ?_
  exact terminal_rename hg (hk.sources w (List.mem_of_find?_eq_some hw))

/-- The circuit is the same one, with other numbers for the devices. -/
theorem circuit_rename (passLimit : Nat) :
    (k.rename r).circuit names' passLimit = (k.circuit names passLimit).relabel g := by
  simp only [circuit, Layout.rename, Circuit.relabel, List.map_map, Circuit.mk.injEq, and_true]
  refine List.map_congr_left fun p hp => ?_
  have hname : p.name ∈ k.parts.map (·.name) := List.mem_map_of_mem hp
  have hdrivers := funext (driver?_rename hg hk hinj hname)
  simp only [Function.comp_apply, Device.relabel, Logic.relabel_wired, hg _ hname, ← hdrivers]
  rfl

end Layout

end Definition

end Breadboard
