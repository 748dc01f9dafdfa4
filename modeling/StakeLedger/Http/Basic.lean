import StakeLedger.Bytes.Hex
import StakeLedger.Json.Codec

namespace StakeLedger.Http

structure Request where
  method : String
  target : String
  contentType : Option String
  body : Bytes
  deriving DecidableEq, Inhabited, Repr

inductive Content
  | document (j : Json)
  | other
  deriving Repr

structure Response where
  status : Nat
  content : Content
  deriving Repr

def Response.plain (status : Nat) : Response := ⟨status, .other⟩

def Response.json (status : Nat) (j : Json) : Response := ⟨status, .document j⟩

def bodyLimit : Nat := 2 * 1024 * 1024

def path (target : String) : List Char := target.toList.takeWhile fun c => c ≠ '?' ∧ c ≠ '#'

def asciiLower (c : Char) : Char := if 'A' ≤ c ∧ c ≤ 'Z' then Char.ofNat (c.toNat + 32) else c

def isBlank (c : Char) : Bool := c = ' ' ∨ c = '\t'

/-- Whether a content type stands for JSON: `application/json` or `application/…+json` in any case,
whatever its parameters. -/
def isJson (contentType : String) : Bool :=
  let essence := (contentType.toList.takeWhile (· ≠ ';')).map asciiLower
  let essence := (essence.reverse.dropWhile isBlank).reverse
  match essence.span (· ≠ '/') with
  | (kind, '/' :: subtype) =>
    .ofList kind = "application" ∧
      (String.ofList subtype = "json" ∨
        ("+json".toList.isSuffixOf subtype ∧ "+json".length < subtype.length))
  | _ => false

/-- Bytes with every `%` and two hexadecimal digits read as one byte; other percent signs stay. -/
def percentDecode : Bytes → Bytes
  | [] => []
  | 37 :: a :: b :: rest =>
    match Hex.digit? a, Hex.digit? b with
    | some x, some y => UInt8.ofNat (16 * x + y) :: percentDecode rest
    | _, _ => 37 :: percentDecode (a :: b :: rest)
  | b :: rest => b :: percentDecode rest

def readBody {α : Type} (c : Codec α) (request : Request) : Except Nat α :=
  if !request.contentType.any isJson then .error 415
  else if bodyLimit < request.body.length then .error 413
  else match c.ofBytes request.body with
    | .ok x => .ok x
    | .error .malformed => .error 400
    | .error .mismatched => .error 422

end StakeLedger.Http
