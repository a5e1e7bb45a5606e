import Breadboard.Board
import Breadboard.Definition.ConnectionLine
import Breadboard.Definition.DeviceLine
import Breadboard.Definition.MonitorLine
import Breadboard.Notice

/-!
# Definition files

    file = "[devices]" { device } "[conns]" { connection } "[monit]" { monitor }

A file is cut before each opening square bracket. Each piece is taken for the section that
its header names, from left to right: sections that are passed over are reported as missing,
a section that comes again or too late is reported and skipped. Reading never stops at the
first issue, so one reading reports all there is to mend.
-/
namespace Breadboard.Definition

/-! ## Sections -/

/-- A piece of a file from an opening square bracket up to the next. -/
structure Chunk where
  opening : Token
  /-- The tokens after the bracket. -/
  body : List Token
  /-- The token after the piece. -/
  stop : Token

/-- Cuts a file before each opening square bracket. The tokens before the first one come
first. -/
def chunks (finish : Token) : List Token → List Token × List Chunk
  | [] => ([], [])
  | t :: rest =>
    let (before, more) := chunks finish rest
    if t.isMark .openSquare then
      ([], ⟨t, before, (more.head?.map Chunk.opening).getD finish⟩ :: more)
    else (t :: before, more)

def readLine : Section → Cursor → Draft → Cursor × Draft
  | .devices => readDeviceLine
  | .conns => readConnectionLine
  | .monit => readMonitorLine

/-- A line is read forward and within its section. -/
theorem suffix_readLine (s : Section) (c : Cursor) (d : Draft) :
    (readLine s c d).1.ahead <:+ c.ahead := by
  cases s with
  | devices => exact suffix_readDeviceLine c d
  | conns => exact suffix_readConnectionLine c d
  | monit => exact suffix_readMonitorLine c d

/-- Reads the lines of a section, as many as are left of its limit. -/
def readLines (s : Section) (limit : Nat) : Nat → Cursor → Draft → Draft
  | 0, c, d =>
    if c.ahead = [] then d else d.report ((Fault.tooManyLines limit s).on c.current)
  | left + 1, c, d =>
    if c.ahead = [] then d
    else
      let (c, d) := readLine s c d
      readLines s limit left c d

/-- The sections of a file that are still to come, and the draft. -/
structure Progress where
  due : List Section
  draft : Draft

/-- Reads the body of a section if it is still to come. The sections before it are then
missing, apart from those for which that has been reported. -/
def Progress.enter (p : Progress) (reported : List Section) (limit : Nat) (s : Section)
    (heading : Token) (body : Cursor) : Progress :=
  if p.due.contains s then
    let passed := p.due.takeWhile (· != s)
    let missing := passed.filter (!reported.contains ·)
    let draft := missing.foldl
      (fun d m => d.report ((Fault.missingSection m (some s)).on heading)) p.draft
    { due := (p.due.dropWhile (· != s)).tail
      draft := readLines s limit limit body draft }
  else { p with draft := p.draft.report ((Fault.misplacedSection s).on heading) }

/-- Reads a piece of a file. A piece without a heading is reported and skipped; a header
without its closing bracket is reported and counts all the same. -/
def Progress.readChunk (reported : List Section) (limit : Nat) (p : Progress) (chunk : Chunk) :
    Progress :=
  let c : Cursor := ⟨chunk.opening, chunk.body, chunk.stop⟩
  match c.current.kind with
  | .heading s _ =>
    let body := c.advance
    if body.isAt .closeSquare then p.enter reported limit s c.current body.advance
    else
      let fault := Fault.unclosedHeader s body.current
      { p with draft := p.draft.report (fault.on body.current) }.enter reported limit s c.current
        body
  | _ => { p with draft := p.draft.report ((Fault.expectedHeading c.current).on c.current) }

def readFile (limit : Nat) (tokens : List Token) (finish : Token) (d : Draft) : Draft :=
  let (before, pieces) := chunks finish tokens
  let reported := if before = [] then [] else [Section.devices]
  let d := match before with
    | [] => d
    | t :: _ => d.report ((Fault.expectedSection .devices t).on t)
  let p := pieces.foldl (Progress.readChunk reported limit) ⟨Section.all, d⟩
  (p.due.filter (!reported.contains ·)).foldl
    (fun d m => d.report ((Fault.missingSection m none).on finish)) p.draft

/-! ## Readings -/

/-- What came of a definition: the board with the devices, connections and probes that could
be made of it, and what its author has to be told. -/
structure Reading where
  board : Board
  diagnostics : List Diagnostic
  notices : List Notice

/-- Whether the definition was without issues. -/
def Reading.accepted (r : Reading) : Bool := r.diagnostics.isEmpty

/-- The warning for an input without a driver. `SET` and `CLEAR` are meant to be left open. -/
def undrivenNotice? (names : NameTable) (input : NameId × InputPin) : Option Notice :=
  let (id, pin) := input
  match pin with
  | .set | .clear => none
  | pin =>
    some (.warn s!"Input {names.displayName id}.{pin.name} is not connected and reads as low")

/-- Reads a definition onto a board. Devices that were there before keep their place, but the
definition cannot refer to them. -/
def readOnto (b : Board) (limit : Nat) (source : String) : Reading :=
  let scanned := scan b.names source.toList
  let lines := (Text.sourceLines source.toList).toArray
  let start : Draft := { circuit := b.circuit, probes := b.probes }
  let d := readFile limit scanned.tokens scanned.finish start
  { board := { names := scanned.names, circuit := d.circuit, probes := d.probes }
    diagnostics := (scanned.issues ++ d.issues).map (·.diagnostic lines)
    notices :=
      if d.issues = [] then d.circuit.undriven.filterMap (undrivenNotice? scanned.names) else [] }

end Breadboard.Definition
