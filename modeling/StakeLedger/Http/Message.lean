import StakeLedger.Http.Basic
import StakeLedger.Network.Link
import StakeLedger.Text.Blank

/-!
Requests to other servers as they are sent, and their replies as they come back. A connection carries
one request and ends with the reply.
-/

namespace StakeLedger.Http

structure Target where
  host : String
  port : Nat
  path : String
  deriving DecidableEq, Repr

def scheme : String := "http://"

def isPathEnd (c : Char) : Bool := c = '/' || c = '?' || c = '#'

def port? : List Char → Option Nat
  | [] => some 80
  | ':' :: digits =>
    match digits.isEmpty, (String.ofList digits).toNat? with
    | true, _ => some 80
    | false, some n => if n < 65536 then some n else none
    | false, none => none
  | _ => none

/-- Only plain HTTP is spoken. A fragment is not sent. -/
def Target.ofUrl? (url : String) : Option Target :=
  let cs := url.toList
  if !scheme.toList.isPrefixOf cs then none
  else
    let (authority, rest) := (cs.drop scheme.length).span (!isPathEnd ·)
    let path := rest.takeWhile (· ≠ '#')
    let path := if path.head? = some '/' then path else '/' :: path
    let (host, after) := match authority with
      | '[' :: inner => (inner.takeWhile (· ≠ ']'), (inner.dropWhile (· ≠ ']')).drop 1)
      | _ => authority.span (· ≠ ':')
    if host.isEmpty then none
    else (port? after).map fun port => ⟨.ofList host, port, .ofList path⟩

def isSent (b : UInt8) : Bool := 33 ≤ b && b ≤ 126 && b ≠ 34 && b ≠ 60 && b ≠ 62 && b ≠ 96

def percentEncode (path : String) : Bytes :=
  (Bytes.ofString path).flatMap fun b =>
    if isSent b then [b] else 37 :: Bytes.ofString (Hex.encodeUpper [b])

def lineEnd : Bytes := [13, 10]

def headerLine (name value : String) : Bytes := Bytes.ofString (name ++ ": " ++ value) ++ lineEnd

def encodeRequest (target : Target) (request : Network.Request) : Bytes :=
  let body := request.body.elim [] fun j => Bytes.ofString j.compact
  let bearer := request.bearer.elim [] fun token => headerLine "authorization" ("Bearer " ++ token)
  let kind := if request.body.isSome then headerLine "content-type" "application/json" else []
  Bytes.ofString (request.method ++ " ") ++ percentEncode target.path
    ++ Bytes.ofString " HTTP/1.1" ++ lineEnd
    ++ headerLine "host" (target.host ++ ":" ++ toString target.port)
    ++ headerLine "connection" "close" ++ headerLine "accept" "*/*" ++ bearer ++ kind
    ++ headerLine "content-length" (toString body.length) ++ lineEnd ++ body

def splitLine : Bytes → Option (Bytes × Bytes)
  | 13 :: 10 :: rest => some ([], rest)
  | b :: rest => (splitLine rest).map fun (line, rest) => (b :: line, rest)
  | [] => none

theorem length_of_splitLine {bs line rest : Bytes} (h : splitLine bs = some (line, rest)) :
    rest.length < bs.length := by
  fun_induction splitLine bs generalizing line with
  | case1 rest' =>
    obtain ⟨-, rfl⟩ := Prod.mk.inj (Option.some.inj h)
    simp only [List.length_cons]
    omega
  | case2 b bs _ ih =>
    obtain ⟨⟨l, r⟩, hs, he⟩ := Option.map_eq_some_iff.1 h
    obtain ⟨-, rfl⟩ := Prod.mk.inj he
    have := ih hs
    simp only [List.length_cons]
    omega
  | case3 => cases h

def readHeader (line : Bytes) : String × String :=
  let (name, value) := (Utf8.replacing line).toList.span (· ≠ ':')
  (.ofList (name.map asciiLower), .ofList (Text.trimBlanks (value.drop 1)))

def readHeaders (bs : Bytes) : Option (List (String × String) × Bytes) :=
  match h : splitLine bs with
  | none => none
  | some ([], rest) => some ([], rest)
  | some (line, rest) =>
    have := length_of_splitLine h
    (readHeaders rest).map fun (headers, rest) => (readHeader line :: headers, rest)
termination_by bs.length

def chunkSize (line : Bytes) : Option Nat :=
  let digits := line.takeWhile fun b => (Hex.digit? b).isSome
  if digits.isEmpty then none
  else some (digits.foldl (fun n b => 16 * n + (Hex.digit? b).getD 0) 0)

def readChunks (bs : Bytes) : Option Bytes :=
  match h : splitLine bs with
  | none => none
  | some (line, rest) =>
    match chunkSize line with
    | none => none
    | some 0 => some []
    | some size =>
      have := length_of_splitLine h
      if rest.length < size + 2 then none
      else (readChunks (rest.drop (size + 2))).map (rest.take size ++ ·)
termination_by bs.length
decreasing_by
  simp only [List.length_drop]
  omega

def readStatus (line : Bytes) : Option Nat :=
  let words := (Utf8.replacing line).splitOn " "
  match words with
  | version :: code :: _ => if version.startsWith "HTTP/1." then code.toNat? else none
  | _ => none

def decodeReply (bs : Bytes) : Option Network.Reply := do
  let (line, rest) ← splitLine bs
  let status ← readStatus line
  let (headers, rest) ← readHeaders rest
  let chunked := (headers.lookup "transfer-encoding").any fun v => v.toLower = "chunked"
  let body ←
    if chunked then readChunks rest
    else match (headers.lookup "content-length").bind (·.toNat?) with
      | some n => if rest.length < n then none else some (rest.take n)
      | none => some rest
  return ⟨status, body⟩

end StakeLedger.Http
