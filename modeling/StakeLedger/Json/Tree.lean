import StakeLedger.Json.Token

/-!
The shape of a text that may stop being a document: a tree whose lists and records say whether they
were closed. A reader that walks it in the order of the text meets problems as they stand there.
-/

namespace StakeLedger.Json

inductive Tree
  | fault
  | null
  | bool (b : Bool)
  | number (n : Option Number)
  | text (s : Option String)
  | list (items : List Tree) (closed : Bool)
  | record (members : List (Option String × Tree)) (closed : Bool)
  deriving Inhabited, Repr

structure Document where
  tree : Tree
  trailing : Bool
  deriving Inhabited, Repr

namespace Builder

inductive Frame
  | list (items : List Tree)
  | record (members : List (Option String × Tree))
  | member (members : List (Option String × Tree)) (key : Option String)
  deriving Repr

inductive Expected
  | value
  | firstItem
  | nextItem
  | firstMember
  | member
  | colon
  | nextMember
  deriving DecidableEq, Repr

inductive State
  | reading (stack : List Frame) (expected : Expected)
  | finished (document : Document)
  deriving Repr

def collapse (stack : List Frame) : Tree :=
  (stack.foldl
    (fun (inner : Option Tree) frame => some <|
      match frame with
      | .list items => .list (inner.toList ++ items).reverse false
      | .record members => .record members.reverse false
      | .member members key => .record ((key, inner.getD .fault) :: members).reverse false)
    none).getD .fault

def plug (stack : List Frame) (t : Tree) : State :=
  match stack with
  | [] => .finished ⟨t, false⟩
  | .list items :: rest => .reading (.list (t :: items) :: rest) .nextItem
  | .member members key :: rest => .reading (.record ((key, t) :: members) :: rest) .nextMember
  | .record _ :: _ => .finished ⟨collapse stack, false⟩

def takesValue : Expected → Bool
  | .value | .firstItem => true
  | _ => false

def step (s : State) (token : Token) : State :=
  match s with
  | .finished d => .finished { d with trailing := true }
  | .reading stack expected =>
    let broken : State := .finished ⟨collapse stack, false⟩
    let value (t : Tree) : State := if takesValue expected then plug stack t else broken
    match token with
    | .fault => broken
    | .null => value .null
    | .bool b => value (.bool b)
    | .number n => value (.number n)
    | .text s =>
      match expected, stack with
      | .firstMember, .record members :: rest | .member, .record members :: rest =>
        .reading (.member members s :: rest) .colon
      | _, _ => value (.text s)
    | .openList =>
      if takesValue expected then .reading (.list [] :: stack) .firstItem else broken
    | .openRecord =>
      if takesValue expected then .reading (.record [] :: stack) .firstMember else broken
    | .closeList =>
      match expected, stack with
      | .firstItem, .list items :: rest | .nextItem, .list items :: rest =>
        plug rest (.list items.reverse true)
      | _, _ => broken
    | .closeRecord =>
      match expected, stack with
      | .firstMember, .record members :: rest | .nextMember, .record members :: rest =>
        plug rest (.record members.reverse true)
      | _, _ => broken
    | .comma =>
      match expected with
      | .nextItem => .reading stack .value
      | .nextMember => .reading stack .member
      | _ => broken
    | .colon => if expected = .colon then .reading stack .value else broken

def finish : State → Document
  | .finished d => d
  | .reading stack _ => ⟨collapse stack, false⟩

end Builder

def Document.ofTokens (tokens : List Token) : Document :=
  Builder.finish (tokens.foldl Builder.step (.reading [] .value))

def Document.ofChars (chars : List (Option Char)) : Document := .ofTokens (tokens chars)

def Document.ofBytes (bytes : Bytes) : Document := .ofChars (Utf8.decode bytes)

def Document.ofString (text : String) : Document := .ofChars (text.toList.map some)

mutual

def toTree : Json → Tree
  | .null => .null
  | .bool b => .bool b
  | .number n => .number (some n)
  | .text s => .text (some s)
  | .list items => .list (itemTrees items) true
  | .record members => .record (memberTrees members) true

def itemTrees : List Json → List Tree
  | [] => []
  | x :: xs => x.toTree :: itemTrees xs

def memberTrees : List (String × Json) → List (Option String × Tree)
  | [] => []
  | (k, x) :: ms => (some k, x.toTree) :: memberTrees ms

end

end StakeLedger.Json
