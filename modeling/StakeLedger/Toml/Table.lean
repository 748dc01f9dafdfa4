import StakeLedger.Json.Basic

/-!
Tables under construction. A table that only lies on the way to others may still be given its header;
one made by a dotted key may only be extended by such keys.
-/

namespace StakeLedger.Toml

inductive Item
  | value (j : Json)
  | table (implied dotted : Bool) (entries : List (String × Item))
  | tables (elements : List (List (String × Item)))
  deriving Repr

abbrev Entries := List (String × Item)

mutual

def Item.toJson : Item → Json
  | .value j => j
  | .table _ _ entries => .record (entriesToJson entries)
  | .tables elements => .list (elementsToJson elements).reverse

def entriesToJson : List (String × Item) → List (String × Json)
  | [] => []
  | (k, x) :: rest => (k, x.toJson) :: entriesToJson rest

def elementsToJson : List (List (String × Item)) → List Json
  | [] => []
  | e :: rest => .record (entriesToJson e) :: elementsToJson rest

end

namespace Entries

def replace (entries : Entries) (key : String) (item : Item) : Entries :=
  entries.map fun (k, x) => if k = key then (k, item) else (k, x)

/-- What a change of the table at the end of a path makes of the table at its start. Tables that are
missing on the way are made; a dotted path enters no table that has a header. The change is told
whether the table was made by dotted keys. -/
def change (byDots : Bool) (f : Bool → Entries → Option Entries) :
    List String → Bool → Entries → Option Entries
  | [], dotted, entries => f dotted entries
  | key :: path, _, entries =>
    match entries.lookup key with
    | none =>
      (change byDots f path byDots []).map fun inner =>
        entries ++ [(key, .table true byDots inner)]
    | some (.value _) => none
    | some (.tables []) => none
    | some (.tables (newest :: earlier)) =>
      (change byDots f path false newest).map fun inner =>
        entries.replace key (.tables (inner :: earlier))
    | some (.table implied dotted inner) =>
      if byDots && !implied then none
      else (change byDots f path dotted inner).map fun inner =>
        entries.replace key (.table implied dotted inner)

def put (path : List String) (key : String) (j : Json) (entries : Entries) : Option Entries :=
  entries.change true
    (fun dotted inner =>
      if dotted = path.isEmpty then none
      else if (inner.lookup key).isSome then none
      else some (inner ++ [(key, .value j)]))
    path false

def openTable (path : List String) (key : String) (entries : Entries) : Option Entries :=
  entries.change false
    (fun _ inner =>
      match inner.lookup key with
      | none => some (inner ++ [(key, .table false false [])])
      | some (.table true false old) => some (inner.replace key (.table false false old))
      | some _ => none)
    path false

def openElement (path : List String) (key : String) (entries : Entries) : Option Entries :=
  entries.change false
    (fun _ inner =>
      match inner.lookup key with
      | none => some (inner ++ [(key, .tables [[]])])
      | some (.tables elements) => some (inner.replace key (.tables ([] :: elements)))
      | some _ => none)
    path false

end Entries

end StakeLedger.Toml
