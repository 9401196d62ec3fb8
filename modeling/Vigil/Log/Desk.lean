import Vigil.Clock
import Vigil.Log.Config
import Vigil.Log.FileName
import Vigil.Log.Folder
import Vigil.Log.Layout
import Vigil.Log.Rotation
import Vigil.Text.Search

/-!
# Handlers

Records go to handlers, each of which shows those of one package, or of all, from a level on. The
package of this library is silent until somebody sets up handlers for it, and silent again after
they are taken down. Handlers of the application itself are never touched.
-/

namespace Vigil.Log

inductive Target where
  /-- A stream that the caller brings along. -/
  | sink
  | standardError
  /-- A file with its path from the working folder. -/
  | file (path : String)
  deriving DecidableEq, Repr, Inhabited

structure Handler where
  id : Nat
  target : Target
  /-- The least rank that it shows. -/
  threshold : Nat
  /-- The package whose records it shows; `none` stands for all records. -/
  scope : Option String
  deriving DecidableEq, Repr, Inhabited

/-- Why a request about handlers or records is turned down. -/
inductive Fault where
  | unknownLevel
  | negativeLevel
  | rotation (fault : Rotation.Fault)
  | retention (fault : Rotation.Fault)
  | fileName (fault : FileName.Fault)
  /-- The log file cannot be created. -/
  | file (obstacle : Obstacle)
  /-- The clock shows an instant beyond the calendar. -/
  | beyondCalendar
  /-- No handler with such an id is installed. -/
  | noSuchHandler
  | wrongKind
  deriving DecidableEq, Repr, Inhabited

/-- A record that a handler has shown. -/
structure Delivery (τ : Type) where
  handler : Nat
  target : Target
  record : Record τ
  deriving Inhabited

/-- The handlers and what they have shown. -/
structure Desk (τ : Type) where
  handlers : List Handler
  nextId : Nat
  /-- Records of the package of this library are let through. -/
  enabled : Bool
  /-- The folders and files that were created. -/
  tree : Tree
  deliveries : List (Delivery τ)
  deriving Inhabited

/-- A module belongs to a package if it is the package or lies below it. -/
def isWithin (package_ origin : String) : Bool :=
  origin == package_ || Text.startsWith origin (package_ ++ ".")

/-- The level that a value names: its name, or a rank of its own. -/
def Level.ofValue (v : Value) : Except Fault Level :=
  match v with
  | .text name =>
      match Level.ofName? name with
      | some level => .ok level
      | none => .error .unknownLevel
  | .flag b => .ok (Level.ofRank (if b then 1 else 0))
  | .whole n => if n < 0 then .error .negativeLevel else .ok (Level.ofRank n.toNat)
  | _ => .error .wrongKind

/-- The rotation means something. -/
def checkRotation : Value → Except Fault Unit
  | .null => .ok ()
  | .text s => (Rotation.check s).mapError .rotation
  | .flag _ => .ok ()
  | .whole _ => .ok ()
  | .real _ => .ok ()
  | _ => .error .wrongKind

/-- The retention means something. -/
def checkRetention : Value → Except Fault Unit
  | .null => .ok ()
  | .text s => (Rotation.checkSpanText s).mapError .retention
  | .flag _ => .ok ()
  | .whole _ => .ok ()
  | _ => .error .wrongKind

/-- The path of the log file that a configuration asks for, as it is filled in at a moment. What is
wrong with the braces is found before the other parameters are looked at, and what is wrong with a
field after that. -/
def filePath (config : Config) (path : String) (now : Calendar.Moment) : Except Fault String := do
  (FileName.check path).mapError .fileName
  checkRotation config.rotation
  checkRetention config.retention
  (FileName.expand now path).mapError .fileName

namespace Handler

variable {τ : Type}

def shows (h : Handler) (r : Record τ) : Bool :=
  decide (h.threshold ≤ r.level.rank) &&
    match h.scope with
    | some package_ => isWithin package_ r.origin
    | none => true

end Handler

namespace Desk

variable {τ : Type}

/-- No handlers, and the package silent. -/
def empty : Desk τ := ⟨[], 0, false, .empty, []⟩

def add (d : Desk τ) (target : Target) (threshold : Nat) (scope : Option String) : Desk τ :=
  { d with
    handlers := d.handlers ++ [⟨d.nextId, target, threshold, scope⟩]
    nextId := d.nextId + 1 }

def remove (d : Desk τ) (id : Nat) : Except Fault (Desk τ) :=
  if d.handlers.any fun h => h.id == id then
    .ok { d with handlers := d.handlers.filter fun h => h.id != id }
  else .error .noSuchHandler

/-- Records of a module are let through. -/
def letsThrough (d : Desk τ) (origin : String) : Bool := d.enabled || !isWithin package origin

/-- Gives a record to the handlers, in the order in which they were installed. -/
def emit (d : Desk τ) (r : Record τ) : Desk τ :=
  if d.letsThrough r.origin then
    { d with
      deliveries :=
        d.deliveries ++
          ((d.handlers.filter fun h => h.shows r).map fun h => ⟨h.id, h.target, r⟩) }
  else d

/-- Somebody hears the records of a module. -/
def hears (d : Desk τ) (origin : String) : Bool := !d.handlers.isEmpty && d.letsThrough origin

/-- Gives a record to the handlers, if one can be made at its instant. -/
def log [Clock τ] (d : Desk τ) (r : Record τ) : Except Fault (Desk τ) :=
  if canRecord (d.hears r.origin) r.at_ then .ok (d.emit r) else .error .beyondCalendar

/-- Gives a record to the handlers whose level is only named. If nobody hears it, the name is not
looked at. -/
def emitNamed [Clock τ] (d : Desk τ) (level : Value) (recordAt : Level → Record τ)
    (origin : String) : Except Fault (Desk τ) :=
  if d.hears origin then
    match Level.ofValue level with
    | .error fault => .error fault
    | .ok level => d.log (recordAt level)
  else .ok d

/-- Installs the handler for the console that a configuration asks for. -/
def addConsole (d : Desk τ) (config : Config) (target : Target) :
    Desk τ × Except Fault (List Nat) :=
  if config.console then
    match Level.ofValue config.level with
    | .ok level => (d.add target level.rank (some package), .ok [d.nextId])
    | .error fault => (d, .error fault)
  else (d, .ok [])

/-- Installs the handler for the file that a configuration asks for. The folders that its path names
are created first of all, and the file before its level is looked at. -/
def addFile (d : Desk τ) (config : Config) (now : Calendar.Moment) :
    Desk τ × Except Fault (List Nat) :=
  if !config.file.truthy then (d, .ok [])
  else
    match config.file.asText? with
    | none => (d, .error .wrongKind)
    | some path =>
        match d.tree.prepare path with
        | (tree, .error obstacle) => ({ d with tree := tree }, .error (.file obstacle))
        | (tree, .ok ()) =>
            match filePath config path now with
            | .error fault => ({ d with tree := tree }, .error fault)
            | .ok path =>
                match tree.openFile path with
                | (tree, .error obstacle) => ({ d with tree := tree }, .error (.file obstacle))
                | (tree, .ok place) =>
                    let d := { d with tree := tree }
                    match Level.ofValue config.level with
                    | .error fault => (d, .error fault)
                    | .ok level =>
                        (d.add (.file place.text) level.rank (some package), .ok [d.nextId])

/-- Lets the package speak and installs its handlers, the one for the console first. Gives the ids
of the handlers. -/
def setUp (d : Desk τ) (config : Config) (console : Target) (now : Calendar.Moment) :
    Desk τ × Except Fault (List Nat) :=
  match { d with enabled := true }.addConsole config console with
  | (d, .error fault) => (d, .error fault)
  | (d, .ok consoleIds) =>
      match d.addFile config now with
      | (d, .error fault) => (d, .error fault)
      | (d, .ok fileIds) => (d, .ok (consoleIds ++ fileIds))

/-- Takes handlers away one after the other and silences the package. A handler that is gone already
stops this. -/
def tearDown (d : Desk τ) : List Nat → Desk τ × Except Fault Unit
  | [] => ({ d with enabled := false }, .ok ())
  | id :: ids =>
      match d.remove id with
      | .ok d => tearDown d ids
      | .error fault => (d, .error fault)

/-- The lines of a target after the deliveries of an earlier state. A record that cannot be written
leaves no line. -/
def linesSince (moment : τ → Calendar.Moment) (before d : Desk τ) (target : Target) :
    List String :=
  (d.deliveries.drop before.deliveries.length).flatMap fun delivery =>
    if delivery.target = target then
      let r := delivery.record
      let m := moment r.at_
      let line :=
        match target with
        | .file _ => r.inFile m
        | _ => r.onConsole m
      match line with
      | .ok line => Text.lines (line ++ "\n")
      | .error _ => []
    else []

end Desk

end Vigil.Log
