import StakeLedger.Network.Link
import StakeLedger.Platform.Service

namespace StakeLedger.Platform

open Json Network

def baseUrl (url : String) : String :=
  .ofList ((url.toList.reverse.dropWhile (· = '/')).reverse)

def endpoint (url path : String) : String := baseUrl url ++ "/api/v1" ++ path

def granted : Option Reply → Except Error Reply
  | none => .error .request
  | some reply => if reply.isSuccess then .ok reply else .error (.status reply.status reply.text)

def document {α : Type} (codec : Codec α) (reply : Option Reply) : Except Error α := do
  (codec.ofBytes (← granted reply).body).mapError fun _ => .undecodable

def tokenCodec (name : String) : Codec String :=
  .record (.cons (.required name .text) .nil) (fun (token, _) => token) (fun token => (token, ()))

variable {σ : Type}

def authorize (link : Link σ) (identUrl refreshToken : String) :
    Session σ (Except Error String) := do
  let reply ← link.send
    { method := "POST", url := endpoint identUrl "/tokens", bearer := some refreshToken
      body := some (.record [("grant_type", .text "refresh_token")]) }
  return document (tokenCodec "access_token") reply

structure Client where
  url : String
  accessToken : String
  deriving DecidableEq, Repr

namespace Client

def get (client : Client) (path : String) : Network.Request :=
  { method := "GET", url := endpoint client.url path, bearer := some client.accessToken }

def post (client : Client) (path : String) (body : Json) : Network.Request :=
  { method := "POST", url := endpoint client.url path, bearer := some client.accessToken
    body := some body }

def request (client : Client) : Call → Network.Request
  | .find address => client.get ("/contracts/" ++ address)
  | .create contract => client.post "/public/contracts" (NewContract.codec.write contract)
  | .vend address => client.post ("/contracts/" ++ address ++ "/subscriptions/token") (.record [])
  | .execute address method params =>
    client.post ("/contracts/" ++ address ++ "/execute")
      (.record [("method", .text method), ("params", .list (params.map Opaque.value)),
        ("value", .ofUInt64 0)])

/-- What a reply means for the call. A contract that is not found is unknown, which is no error. -/
def interpret (reply : Option Reply) : (c : Call) → Except Error c.Answer
  | .find _ =>
    if reply.any (·.status == 404) then .ok none else (document Contract.codec reply).map some
  | .create _ => document Contract.codec reply
  | .vend _ => document (tokenCodec "token") reply
  | .execute .. => (granted reply).map (·.body)

def service (client : Client) (link : Link σ) : Service σ where
  call c := (do return interpret (← link.send (client.request c)) c : Session σ _).run

end Client

end StakeLedger.Platform
