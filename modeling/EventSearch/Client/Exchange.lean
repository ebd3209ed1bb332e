import EventSearch.Client.Records
import EventSearch.Query.Basic

/-!
# Exchanges with the search service

What is sent for a query or a health check, and what the reply amounts to. A query that
cannot be encoded is refused before anything is sent.
-/
namespace EventSearch

structure Request where
  method : String
  path : String
  contentType : Option String := none
  identified : Bool := false
  body : Option String := none
deriving DecidableEq, Repr

/-- What comes of sending a request: nobody listens, no answer comes in time, the answer is not
one of the protocol, or a status with a body. -/
inductive Reply where
  | refused
  | silent
  | broken
  | answered (status : Nat) (body : String)
deriving DecidableEq, Repr

inductive ClientError where
  | query (e : QueryError)
  | unavailable
  | timeout
  | request
  | api (status : Nat) (text : String)
  | decode (e : RecordError)
deriving Repr

/-- The message of an error, with the given words for what comes from elsewhere. -/
def ClientError.message (elsewhere : String) : ClientError → String
  | .query e => "Invalid query: " ++ e.message
  | .unavailable => "Search service unavailable"
  | .timeout => "Request timeout"
  | .request => "Request failed: " ++ elsewhere
  | .api status text => "API error " ++ Text.decimal status ++ ": " ++ text
  | .decode e => "Failed to decode response: " ++ e.message elsewhere

namespace Client

/-- The path of an endpoint below a base path, whose slashes at the end do not count. -/
def endpoint (base path : String) : String :=
  String.ofList ((base.toList.reverse.dropWhile (· == '/')).reverse) ++ path

def searchRequest (base body : String) : Request :=
  { method := "POST", path := endpoint base "/v1/search",
    contentType := some "application/json", identified := true, body := some body }

def healthRequest (base : String) : Request :=
  { method := "GET", path := endpoint base "/health" }

def isSuccess (status : Nat) : Bool := 200 ≤ status && status < 300

/-- Statuses whose answer has no body. -/
def isBodiless (status : Nat) : Bool := status < 200 || status == 204 || status == 304

/-- The text of a body, without a byte order mark in front. -/
def bodyText (status : Nat) (body : String) : String :=
  if isBodiless status then ""
  else match body.toList with
    | '\ufeff' :: rest => String.ofList rest
    | _ => body

/-- The status and text of an answer, or the reason why there is none. -/
def receive : Reply → Except ClientError (Nat × String)
  | .refused => .error .unavailable
  | .silent => .error .timeout
  | .broken => .error .request
  | .answered status body => .ok (status, bodyText status body)

def records (reply : Reply) : Except ClientError (List Record) := do
  let (status, text) ← receive reply
  if isSuccess status then
    match Records.parse text with
    | .ok records => .ok records
    | .error e => .error (.decode e)
  else .error (.api status text)

/-- The request that reaches the service, and the records that come back. -/
def search (base : String) (query : Query) (reply : Reply) :
    Option Request × Except ClientError (List Record) :=
  match query.text with
  | .error e => (none, .error (.query e))
  | .ok body =>
      (if reply = .refused then none else some (searchRequest base body), records reply)

/-- The request that reaches the service, and whether it is available. -/
def healthCheck (base : String) (reply : Reply) : Option Request × Except ClientError Unit :=
  let result : Except ClientError Unit := do
    let (status, _) ← receive reply
    if isSuccess status then .ok () else .error .unavailable
  (if reply = .refused then none else some (healthRequest base), result)

end Client

end EventSearch
