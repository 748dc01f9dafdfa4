import StakeLedger.Toml.Scalar
import StakeLedger.Toml.Table

namespace StakeLedger.Toml

def isKeyChar (c : Char) : Bool := c.isAlphanum || c == '_' || c == '-'

def readKey : Reader String := fun cs =>
  match cs with
  | '"' :: rest => readBasic (rest.length + 1) [] rest
  | '\'' :: rest => readLiteral [] rest
  | _ =>
    let name := cs.takeWhile isKeyChar
    if name.isEmpty then none else some (.ofList name, cs.drop name.length)

def readPath (fuel : Nat) (before : List String) (cs : List Char) :
    Option ((List String × String) × List Char) :=
  match fuel with
  | 0 => none
  | fuel + 1 =>
    match readKey (skipBlanks cs) with
    | none => none
    | some (key, rest) =>
      match skipBlanks rest with
      | '.' :: rest => readPath fuel (key :: before) rest
      | rest => some ((before.reverse, key), rest)

def skipComment (cs : List Char) : List Char :=
  match cs with
  | '#' :: rest => rest.dropWhile isPlain
  | _ => cs

def skipSpace (fuel : Nat) (cs : List Char) : List Char :=
  match fuel with
  | 0 => cs
  | fuel + 1 =>
    let cs := skipBlanks cs
    match readNewline? cs with
    | some rest => skipSpace fuel rest
    | none =>
      match cs with
      | '#' :: _ =>
        match readNewline? (skipComment cs) with
        | some rest => skipSpace fuel rest
        | none => skipComment cs
      | _ => cs

def nesting : Nat := 80

mutual

def readValue (fuel depth : Nat) (cs : List Char) : Option (Json × List Char) :=
  match fuel with
  | 0 => none
  | fuel + 1 =>
    match cs with
    | '[' :: rest =>
      if depth = 0 then none else readItems fuel (depth - 1) [] (skipSpace (rest.length + 1) rest)
    | '\x7b' :: rest =>
      if depth = 0 then none
      else match skipBlanks rest with
        | '\x7d' :: rest => some (.record [], rest)
        | rest => readPairs fuel (depth - 1) [] rest
    | _ => readScalar cs

def readItems (fuel depth : Nat) (out : List Json) (cs : List Char) :
    Option (Json × List Char) :=
  match fuel with
  | 0 => none
  | fuel + 1 =>
    match cs with
    | ']' :: rest => some (.list out.reverse, rest)
    | _ =>
      match readValue fuel depth cs with
      | none => none
      | some (x, rest) =>
        match skipSpace (rest.length + 1) rest with
        | ',' :: rest => readItems fuel depth (x :: out) (skipSpace (rest.length + 1) rest)
        | ']' :: rest => some (.list (x :: out).reverse, rest)
        | _ => none

def readPairs (fuel depth : Nat) (entries : Entries) (cs : List Char) :
    Option (Json × List Char) :=
  match fuel with
  | 0 => none
  | fuel + 1 =>
    match readPath (cs.length + 1) [] cs with
    | some ((path, key), '=' :: rest) =>
      match readValue fuel depth (skipBlanks rest) with
      | none => none
      | some (x, rest) =>
        match entries.put path key x with
        | none => none
        | some entries =>
          match skipBlanks rest with
          | ',' :: rest => readPairs fuel depth entries rest
          | '\x7d' :: rest => some (.record (entriesToJson entries), rest)
          | _ => none
    | _ => none

end

structure State where
  entries : Entries
  current : List String

def State.put (s : State) (path : List String) (key : String) (j : Json) : Option State :=
  (s.entries.change false (fun _ inner => Entries.put path key j inner) s.current false).map
    fun entries => { s with entries }

def State.openTable (s : State) (array : Bool) (path : List String) (key : String) :
    Option State :=
  (if array then s.entries.openElement path key else s.entries.openTable path key).map
    fun entries => ⟨entries, path ++ [key]⟩

def readStatement (s : State) (cs : List Char) : Option (State × List Char) :=
  match cs with
  | [] => some (s, cs)
  | c :: rest =>
    if c = '#' ∨ c = '\n' ∨ c = '\r' then some (s, cs)
    else if c = '[' then
      let array := rest.head? == some '['
      let rest := if array then rest.drop 1 else rest
      match readPath (rest.length + 1) [] rest with
      | some ((path, key), ']' :: rest) =>
        match (if array then readChar ']' rest else some rest) with
        | some rest => (s.openTable array path key).map (·, rest)
        | none => none
      | _ => none
    else
      match readPath (cs.length + 1) [] cs with
      | some ((path, key), '=' :: rest) =>
        match readValue (2 * rest.length + 2) nesting (skipBlanks rest) with
        | some (j, rest) => (s.put path key j).map (·, rest)
        | none => none
      | _ => none

def readDocument (fuel : Nat) (s : State) (cs : List Char) : Option State :=
  match fuel with
  | 0 => none
  | fuel + 1 =>
    match readStatement s (skipBlanks cs) with
    | none => none
    | some (s, rest) =>
      let rest := skipComment (skipBlanks rest)
      match rest with
      | [] => some s
      | _ =>
        match readNewline? rest with
        | some rest => readDocument fuel s rest
        | none => none

/-- The value of a TOML document. A byte order mark in front does not count. -/
def parse? (text : String) : Option Json :=
  let cs := text.toList
  let cs := if cs.head? = some '\uFEFF' then cs.drop 1 else cs
  (readDocument (cs.length + 1) ⟨[], []⟩ cs).map fun s => .record (entriesToJson s.entries)

end StakeLedger.Toml
