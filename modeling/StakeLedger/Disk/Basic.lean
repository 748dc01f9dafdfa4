import StakeLedger.Bytes.Basic
import StakeLedger.Disk.Path

/-!
A tree of files as a table from places to entries. A place is the list of names on the way from the
root, which is always a directory. Paths that are not absolute start from a working directory.
-/

namespace StakeLedger

abbrev Place := List String

inductive Entry
  | file (content : Bytes)
  | directory
  deriving DecidableEq, Repr

structure Disk where
  entries : List (Place × Entry)
  workingDirectory : Place := []
  deriving Repr

namespace Disk

inductive Fault
  | notFound
  | exists
  | notDirectory
  | isDirectory
  | notEmpty
  | system (reason : String)
  deriving DecidableEq, Repr

def Fault.message : Fault → String
  | .notFound => "No such file or directory (os error 2)"
  | .exists => "File exists (os error 17)"
  | .notDirectory => "Not a directory (os error 20)"
  | .isDirectory => "Is a directory (os error 21)"
  | .notEmpty => "Directory not empty (os error 39)"
  | .system reason => reason

def empty : Disk := { entries := [] }

def get? (d : Disk) (place : Place) : Option Entry :=
  if place = [] then some .directory else d.entries.lookup place

def put (d : Disk) (place : Place) (entry : Entry) : Disk :=
  { d with entries := (place, entry) :: d.entries.filter (·.1 ≠ place) }

def erase (d : Disk) (place : Place) : Disk :=
  { d with entries := d.entries.filter (·.1 ≠ place) }

theorem lookup_filter_ne (es : List (Place × Entry)) {place other : Place} (h : other ≠ place) :
    (es.filter (·.1 ≠ place)).lookup other = es.lookup other := by
  induction es with
  | nil => rfl
  | cons e es ih =>
    obtain ⟨k, x⟩ := e
    by_cases hk : k = place
    · subst hk
      have hb : (other == k) = false := by simpa using h
      simpa [List.lookup_cons, hb] using ih
    · cases hb : other == k <;> simp_all [List.lookup_cons]

theorem get?_put (d : Disk) (place other : Place) (entry : Entry) (h : place ≠ []) :
    (d.put place entry).get? other = if other = place then some entry else d.get? other := by
  unfold get? put
  by_cases ho : other = []
  · simp [ho, Ne.symm h]
  · by_cases hp : other = place
    · simp [hp, h]
    · have hb : (other == place) = false := by simpa using hp
      simp only [ho, hp, if_false, List.lookup_cons, hb]
      exact lookup_filter_ne d.entries hp

def walk (d : Disk) (here : Place) (name : String) : Except Fault Place :=
  match d.get? here with
  | none => .error .notFound
  | some (.file _) => .error .notDirectory
  | some .directory =>
    if name = "" ∨ name = "." then .ok here
    else if name = ".." then .ok here.dropLast
    else .ok (here ++ [name])

def origin (d : Disk) (p : Path) : Place := if p.isAbsolute then [] else d.workingDirectory

def place (d : Disk) (p : Path) : Except Fault Place := p.names.foldlM d.walk (d.origin p)

def find (d : Disk) (p : Path) : Except Fault Entry := do
  let place ← d.place p
  match d.get? place with
  | some entry => .ok entry
  | none => .error .notFound

def holds (d : Disk) (p : Path) : Bool := (d.find p).isOk

def read (d : Disk) (p : Path) : Except Fault Bytes := do
  match ← d.find p with
  | .file content => .ok content
  | .directory => .error .isDirectory

def names (d : Disk) (p : Path) : List String :=
  match d.place p with
  | .ok place => d.entries.filterMap fun (e, _) =>
    if e ≠ [] ∧ e.dropLast = place then e.getLast? else none
  | .error _ => []

inductive Action
  | createDirectories (p : Path)
  | write (p : Path) (content : Bytes)
  | rename (source target : Path)
  | remove (p : Path)
  | removeDirectory (p : Path)
  deriving DecidableEq, Repr

def createStep (state : Disk × Place) (name : String) : Except Fault (Disk × Place) := do
  let (d, here) := state
  let place ← d.walk here name
  match d.get? place with
  | some .directory => .ok (d, place)
  | some (.file _) => .error .notDirectory
  | none => .ok (d.put place .directory, place)

def createDirectories (d : Disk) (p : Path) : Except Fault Disk :=
  match p.names.foldlM createStep (d, d.origin p) with
  | .ok (d, _) => .ok d
  | .error .notDirectory =>
    .error (match d.find p with | .ok (.file _) => .exists | _ => .notDirectory)
  | .error e => .error e

def write (d : Disk) (p : Path) (content : Bytes) : Except Fault Disk := do
  let place ← d.place p
  match d.get? place with
  | some .directory => .error .isDirectory
  | some (.file _) => .ok (d.put place (.file content))
  | none =>
    match d.get? place.dropLast with
    | some .directory => .ok (d.put place (.file content))
    | _ => .error .notFound

def install (d : Disk) (p : Path) (entry : Entry) : Except Fault Disk := do
  let d ← d.createDirectories p.parent
  return d.put (← d.place p) entry

def rename (d : Disk) (source target : Path) : Except Fault Disk := do
  let start ← d.place source
  let goal ← d.place target
  match d.get? start with
  | none => .error .notFound
  | some .directory => .error .isDirectory
  | some (.file content) =>
    match d.get? goal with
    | some .directory => .error .isDirectory
    | _ => .ok ((d.erase start).put goal (.file content))

def remove (d : Disk) (p : Path) : Except Fault Disk := do
  match ← d.find p with
  | .directory => .error .isDirectory
  | .file _ => .ok (d.erase (← d.place p))

def removeDirectory (d : Disk) (p : Path) : Except Fault Disk := do
  match ← d.find p with
  | .file _ => .error .notDirectory
  | .directory =>
    if (d.names p).isEmpty then .ok (d.erase (← d.place p)) else .error .notEmpty

def perform (d : Disk) : Action → Except Fault Disk
  | .createDirectories p => d.createDirectories p
  | .write p content => d.write p content
  | .rename source target => d.rename source target
  | .remove p => d.remove p
  | .removeDirectory p => d.removeDirectory p

/-- Actions in order up to the first that fails, and its fault. What was done stays done. -/
def performAll (d : Disk) : List Action → Disk × Option Fault
  | [] => (d, none)
  | a :: rest =>
    match d.perform a with
    | .ok d => d.performAll rest
    | .error e => (d, some e)

end Disk

end StakeLedger
