import LedgerSearch.Json.Parser
import LedgerSearch.Program.Site
import LedgerSearch.Text.Base64

/-
  The calls of the document index as requests to a search engine over HTTP, and what its responses
  mean.
-/

namespace LedgerSearch.Search

/-- A request to the search engine, as it goes over the wire. -/
structure HttpRequest where
  method : String
  url : String
  contentType : Option String := none
  authorization : Option String := none
  body : String := ""
deriving DecidableEq

/-- A response, or a connection that gave none. -/
inductive HttpReply where
  | closed
  | answer (status : Nat) (body : String)
deriving DecidableEq

/-- The surroundings of a program that sends HTTP requests. -/
abbrev Http : Interface := ⟨HttpRequest, fun _ => HttpReply⟩

/-- Where the search engine is and how it is addressed. -/
structure Client where
  /-- The address of the search engine, without a slash at its end. -/
  url : String
  /-- What stands in front of the names of the indexes. -/
  deployment : String
  /-- The content of the header that says who asks. -/
  authorization : Option String

namespace Client

/-- A name and a password as they are sent. -/
def basicAuthorization (user password : String) : String :=
  "Basic " ++ Text.Base64.encode s!"{user}:{password}".toUTF8.toList

/-- Access is asked for by name and password only where both are known. -/
def make (url deployment : String) (user password : Option String) : Client where
  url := String.ofList (url.toList.reverse.dropWhile (· = '/')).reverse
  deployment := deployment
  authorization := do some (basicAuthorization (← user) (← password))

/-- Every request carries the header that says who asks. -/
def request (c : Client) (method path : String) : HttpRequest where
  method := method
  url := s!"{c.url}/{path}"
  authorization := c.authorization

/-- A body of JSON, the fields of its objects in the order of their names. -/
def withJson (r : HttpRequest) (j : Json) : HttpRequest :=
  { r with contentType := some "application/json", body := j.sorted.text }

/-- No answer came. -/
def lost (text : String) : Error := .index (.transport text)

/-- An answer came whose status tells of a failure. -/
def refused (status : Nat) (body : String) : Error := .index (.status status body)

/-- The statuses that tell of success. -/
def isSuccess (status : Nat) : Bool := 200 ≤ status && status < 300

/-- The JSON of a successful response. -/
def jsonOf (status : Nat) (body : String) : Except Error Json :=
  if isSuccess status then
    match Json.parse? body with
    | some j => .ok j.sorted
    | none => .error (lost "response is not JSON")
  else .error (refused status body)

/-- Sends a request and reads the response, if there is one. -/
def send {α : Type} (r : HttpRequest) (read : Nat → String → Except Error α) : Program Http α :=
  .ask r fun (reply : HttpReply) =>
    match reply with
    | .closed => .stop (.error (lost "no response"))
    | .answer status body => .ofResult (read status body)

/-- Reads a response where a missing index counts as `absent`. -/
def orMissing {α : Type} (absent : α) (read : Json → Except Error α) (status : Nat)
    (body : String) : Except Error α :=
  if status = 404 then .ok absent else jsonOf status body >>= read

/-- Searches the ledger index. -/
def searchLedgers {α : Type} (c : Client) (query : Json) (absent : α)
    (read : Json → Except Error α) : Program Http α :=
  let path := s!"{IndexName.qualified c.deployment .ledger}/_search"
  send (withJson (c.request "POST" path) query) (orMissing absent read)

/-- The smallest and the largest sequence, without any hits. -/
def boundsQuery : Json :=
  let of (what : String) : Json := .object [(what, .object [("field", .string "seq")])]
  .object [("size", .nat 0),
    ("aggs", .object [("min_seq", of "min"), ("max_seq", of "max")])]

/-- The sequences in `[lo, hi)`, ascending; as many hits are asked for as the range is long. -/
def seqsQuery (lo hi : UInt32) : Json :=
  .object [
    ("size", .uint32 (hi - lo)),
    ("_source", .array [.string "seq"]),
    ("sort", .array [.object [("seq", .string "asc")]]),
    ("query", .object [("range", .object [
      ("seq", .object [("gte", .uint32 lo), ("lt", .uint32 hi)])])])]

/-- The number of documents in each part of the range, without any hits. -/
def bucketsQuery (start stop interval : UInt32) : Json :=
  let ranges := (bucketRanges start stop interval).map fun (a, b) =>
    Json.object [("from", .uint32 a), ("to", .uint32 b)]
  .object [("size", .nat 0),
    ("aggs", .object [("ranges", .object [
      ("range", .object [("field", .string "seq"), ("ranges", .array ranges)])])])]

/-- An index that is there already counts as created. -/
def readCreated (status : Nat) (body : String) : Except Error Unit :=
  if status = 400 then
    if (body.splitOn "resource_already_exists_exception").length > 1 then .ok ()
    else .error (refused 400 body)
  else (jsonOf status body).map fun _ => ()

/-- How the search engine answers a call. -/
def call (c : Client) : (q : IndexCall String) → Program Http q.Reply
  | .bulk body =>
    send { c.request "POST" "_bulk" with contentType := some "application/x-ndjson", body }
      fun status text => jsonOf status text >>= BulkReply.ofJson
  | .bounds => c.searchLedgers boundsQuery none fun j => .ok (boundsOf j)
  | .seqsIn lo hi =>
    if hi ≤ lo then .done [] else c.searchLedgers (seqsQuery lo hi) [] seqsOf
  | .count n => send (c.request "GET" s!"{n.qualified c.deployment}/_count") (orMissing 0 countOf)
  | .buckets start stop interval =>
    c.searchLedgers (bucketsQuery start stop interval) [] bucketsOf
  | .create n mapping =>
    send (withJson (c.request "PUT" (n.qualified c.deployment)) mapping) readCreated
  | .delete n => send (c.request "DELETE" (n.qualified c.deployment)) (orMissing () fun _ => .ok ())

end Client

end LedgerSearch.Search
