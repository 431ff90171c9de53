import TacBench.Bench.Run
import TacBench.Bench.Token

/-! The server that collects prices: whether it is there, who is asking, what is sent. -/
namespace TacBench.Bench.Upload

/-- The address without the marks around it. -/
def unwrapped (url : String) : String :=
  let s := Text.strip url.toList
  let s := match s with
    | '<' :: r => if r.getLast? = some '>' then Text.strip r.dropLast else s
    | _ => s
  let s := if "URL:".toList.isPrefixOf s then Text.strip (s.drop 4) else s
  String.ofList s

/-- An address begins with a scheme and a colon. -/
def hasScheme (url : String) : Bool :=
  let s := url.toList
  let scheme := s.takeWhile fun c => c != '/' && c != ':'
  !scheme.isEmpty && s[scheme.length]? == some ':'

/-- What stands before the last number sign of an address, and what stands behind it. -/
def splitFragment (url : String) : String × String :=
  let s := url.toList
  if s.contains '#' then
    let fragment := (s.reverse.takeWhile (· != '#')).reverse
    (String.ofList (s.take (s.length - fragment.length - 1)), String.ofList fragment)
  else (url, "")

/-- The address that is asked; an empty fragment is left out. -/
def checkAddress (url : String) : Work String := do
  let (path, fragment) := splitFragment (unwrapped url)
  let url := if fragment.isEmpty then path else path ++ "#" ++ fragment
  if hasScheme path then return url else throw (.address url)

/-- Sends a request and reads the reply. An empty body is not sent. -/
def send (path : String) (body : Json) : Work (Int × Json) := do
  let url ← checkAddress ((← uploaderNow).host ++ path)
  let r ← get
  let reply := r.replies.head?.getD (.unreachable "offline")
  let asked : Request := ⟨url, if body.holds then some body else none⟩
  set { r with replies := r.replies.drop 1, requests := r.requests ++ [asked] }
  ofExcept (reply.read r.platform)

/-- A request that is left out, with an empty reply, while there is no connection. -/
def request (path : String) (body : Json) (forced : Bool) : Work Json := do
  if (← uploaderNow).connected.holds || forced then return (← send path body).2
  else return .dict []

/-- An entry of a reply. -/
def entry (reply : Json) (key : Text) : Work Json :=
  match reply with
  | .dict es => pure (Json.field es key)
  | j => throw (.replyKind j.kindName)

/-- A reply counts if its status is at most 200. -/
def accepts (status : Int) : Bool := status ≤ 200

/-- Faults of the connection, as opposed to what comes over it. -/
def isBroken : Fault → Bool
  | .unreachable _ | .http _ _ => true
  | _ => false

/-- Asks whether the server is ready. That there is no connection is only warned about. -/
def checkConnection : Work Unit := do
  let host := (← uploaderNow).host
  discard (checkAddress host)
  let answer ← try
      pure (some (← send "/api/v1/service-online" (.dict [])))
    catch f =>
      if !isBroken f then throw f
      let m := f.message
      logging (·.warn s!"Problem with connecting to {host} ({m}).")
      pure none
  match answer with
  | none => return
  | some (status, reply) =>
    let connected ← if accepts status then entry reply "success" else pure (.bool false)
    setUploader fun u => { u with connected }
    let note ← entry reply "msg"
    if note.holds then logging (·.warn note.text)
    let version ← entry reply "version"
    setUploader fun u => { u with version }

/-- Asks the user for a line. -/
def askLine (prompt : String) : Work String := do
  let r ← get
  match r.typed with
  | [] =>
    set { r with prompts := r.prompts ++ [prompt] }
    throw .inputEnded
  | line :: rest =>
    set { r with prompts := r.prompts ++ [prompt], typed := rest }
    return line

def askToken : Work Json := do
  let leader ← askLine "Login of your team leader? "
  let login ← askLine "Your login? "
  request "/api/v1/generate-author-token" (.dict [("leader", .str leader), ("login", .str login)])
    false

/-- Asks until the server knows the user. The fuel is the number of lines the user can still
type. -/
def askUntilKnown : Nat → Work Json
  | 0 => throw .inputEnded
  | n + 1 => do
    let reply ← askToken
    if (← entry reply "success").holds then return reply
    let m := (← entry reply "message").text
    logging (·.warn ("Invalid credentials (" ++ m ++ ")."))
    askUntilKnown n

def newToken : Work Json := do
  logging (·.line [.header]
    "At first, please, provide your FIT login names for sending benchmark results:")
  entry (← askUntilKnown ((← get).typed.length + 1)) "token"

/-- The token that was saved earlier, if it is one. -/
def savedToken? (files : Files.Tree) (path : String) : Option String :=
  match files.read path with
  | .error _ => none
  | .ok bytes =>
    match Utf8.decode bytes with
    | .error _ => none
    | .ok s => Token.ofText? (String.ofList (Text.unifyBreaks s.toList))

/-- Saves a token. The file is emptied before it turns out that the token cannot be written. -/
def saveToken (token : Json) : Work Text := do
  let path := (← uploaderNow).tokenFile
  let write (bytes : List UInt8) : Work Unit := do
    let files ← ofFile ((← get).files.write path bytes)
    modify fun r => { r with files }
  match token with
  | .str s =>
    match Utf8.encodeText s with
    | .ok bytes =>
      write bytes
      return s
    | .error f =>
      write []
      throw (.encoding f)
  | j =>
    write []
    throw (.tokenKind j.kindName)

/-- Finds out who is asking; false if the server gives no token. -/
def authenticate : Work Bool := do
  let u ← uploaderNow
  if !u.connected.holds then return true
  let token ← match savedToken? (← get).files u.tokenFile with
    | some s => pure (some (Text.ofString s))
    | none =>
      let token ← newToken
      if token.holds then pure (some (← saveToken token)) else pure none
  match token with
  | some s =>
    setUploader fun u => { u with token := some s }
    return true
  | none => return false

def collect (p : Price) : Work Unit := setUploader fun u => { u with prices := u.prices ++ [p] }

def priceJson (p : Price) : Json :=
  .dict [("section", .str p.sectionName), ("name", p.name), ("operand_price", p.operands),
    ("instruction_price", p.instructions)]

/-- Sends what was collected; with nothing collected there is nothing to send. -/
def sendPrices : Work Json := do
  let u ← uploaderNow
  if u.prices.isEmpty then return .dict [("success", .bool true)]
  let token := match u.token with
    | some s => .str s
    | none => .null
  request "/api/v1/benchmark-result"
    (.dict [("token", token), ("reports", .list (u.prices.map priceJson))]) false

end TacBench.Bench.Upload
