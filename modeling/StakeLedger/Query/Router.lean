import StakeLedger.Engine.Chain
import StakeLedger.Platform.Service
import StakeLedger.Query.PatternText

/-! Queries by path. Routes are tried in the order they were registered, and the first whose pattern
matches answers. -/

namespace StakeLedger.Query

open Engine Platform

inductive Error
  | notHandled (path : String)
  | pattern (text : String) (fault : PatternFault)
  | entropyUnavailable (reason : String)
  deriving DecidableEq, Repr

namespace Error

def message : Error → String
  | notHandled path => "no handler for query path " ++ path
  | pattern text fault => "invalid route pattern " ++ text ++ ": " ++ fault.message
  | entropyUnavailable reason => "entropy unavailable: " ++ reason

def code : Error → UInt32
  | notHandled _ | pattern _ _ => 2
  | entropyUnavailable _ => 3

end Error

abbrev Handler (σ : Type) := String → QueryRequest → Session σ (Except Error QueryResponse)

structure Route (σ : Type) where
  pattern : Pattern
  handler : Handler σ

abbrev Router (σ : Type) := List (Route σ)

namespace Router

variable {σ : Type}

/-- A route after all others. A text that is no pattern changes nothing. -/
def register (router : Router σ) (text : String) (handler : Handler σ) :
    Except Error (Router σ) :=
  match Pattern.ofText text with
  | .ok pattern => .ok (router ++ [⟨pattern, handler⟩])
  | .error fault => .error (.pattern text fault)

def route (router : Router σ) (request : QueryRequest) :
    Session σ (Except Error QueryResponse) :=
  match router with
  | [] => return .error (.notHandled request.path)
  | r :: rest =>
    match r.pattern.argument? request.path with
    | some argument => r.handler argument request
    | none => route rest request

def refusal (request : QueryRequest) (e : Error) : QueryResponse :=
  ⟨e.code, e.message, [], request.height⟩

def respond (router : Router σ) (request : QueryRequest) : Session σ QueryResponse := do
  match ← router.route request with
  | .ok response => return response
  | .error e => return refusal request e

end Router

end StakeLedger.Query
