import TrinityOS.Programs
import TrinityOS.Service.Json

namespace TrinityOS.Service

inductive HTTPStatus where
  | ok
  | badRequest
  | forbidden
  | notFound
  | internalServerError
  | serviceUnavailable
  deriving DecidableEq, Repr

def HTTPStatus.code : HTTPStatus → ℕ
  | .ok => 200
  | .badRequest => 400
  | .forbidden => 403
  | .notFound => 404
  | .internalServerError => 500
  | .serviceUnavailable => 503

/-- The entries of `_headers_buffer`. -/
inductive HeadLine where
  | status (code : ℕ)
  | field (name value : String)
  deriving DecidableEq, Repr

inductive Method where
  | get
  | post
  deriving DecidableEq, Repr

/-- A request as the handlers find it. `header` is `headers.get` and `read` is `rfile.read`, which
may raise and, where `waits` says so, does not return: a connected client has sent less. -/
structure Request where
  method : Method
  path : String
  header : String → Option String
  read : ℤ → Except PyError (List UInt8)
  waits : ℤ → Bool

def Request.bare (method : Method) (path : String) : Request where
  method := method
  path := path
  header _ := none
  read _ := .ok []
  waits _ := false

/-- The first two results of `authorize_bearer`; `sub` is an error text where `ok` is false. -/
structure Verdict where
  ok : Bool
  sub : String
  deriving DecidableEq, Repr

structure Publication where
  topic : Value
  payload : Value
  key : Value
  headers : List (String × String)
  idempotencyKey : Value

/-- What `getattr` reads of the object that `publish` returns. -/
structure Published where
  id : Value
  ts : Value

structure Message where
  id : Value
  topic : Value
  ts : Value
  headers : Value
  payload : Value

/-- A subscription: the result of its `i`-th poll, and its methods `close` and `unsubscribe`
where it has them. -/
structure Subscription where
  poll : ℕ → Except PyError (Option Message)
  close : Option (Except PyError Unit)
  unsubscribe : Option (Except PyError Unit)

/-- What a request makes the service do: `readBody` is a body that a parser has returned, `head`
and `write` are what reaches the client. -/
inductive Action where
  | authorize (scopes : List String) (verdict : Verdict)
  | readBody (body : Value)
  | head (lines : List HeadLine)
  | write (data : List Char)
  | publish (message : Publication)
  | ack (topic group id : Value)
  | subscribe (topic group : String)
  | poll (timeout : Float)
  | close
  | unsubscribe
  | handleReload (actor : String) (configPath : Value)
  | handleDrain (actor : String) (enable : Bool)
  | logRun (actor verb target rid : String)
  | logFinish (status : String) (fields : List (String × Value))

def Action.head? : Action → Option (List HeadLine)
  | .head lines => some lines
  | _ => none

def Action.body? : Action → Option Value
  | .readBody body => some body
  | _ => none

structure TrinityKernel where
  configFile : Str
  config : Value
  ready : Bool
  /-- whether `api_server` is set; it is the server that has this kernel -/
  apiServer : Bool

/-- The attributes of the server object, `none` where it lacks one. -/
structure Server where
  kernel : Option TrinityKernel
  ready : Option Bool

structure World where
  server : Server
  files : Str → Option (List UInt8)
  headersBuffer : List HeadLine
  /-- how often `wfile.write` has been called -/
  sends : ℕ
  /-- whether the descriptor of the connection has been closed -/
  connectionClosed : Bool
  /-- the same of the descriptor of standard error -/
  stderrClosed : Bool
  trace : List Action

abbrev Handler (α : Type) := Program World PyError α

/-- The steps of a reload that the file system may refuse. -/
inductive FileStep where
  | openConfig
  | readConfig
  | openTemporary
  | writeTemporary
  | replace
  deriving DecidableEq, Repr

/-- What the service uses and does not define: the installed package, the broker, the clock, the
connection and the file system. -/
structure Environment where
  authorizeBearer : Option String → List String → Verdict
  publish : Publication → Except PyError Published
  ack : Value → Value → Value → Except PyError Value
  subscribe : String → String → Except PyError Subscription
  handleMusclePost : Request → Handler Bool
  newRequestId : String
  /-- the readings of `time.time()` while one request is handled -/
  time : ℕ → Float
  /-- `float(s)`, `none` for a `ValueError` -/
  float : String → Option Float
  floatRepr : Float → List Char
  /-- the containers that `json.loads` can enter before a `RecursionError` -/
  depth : ℕ
  /-- the body that `send_error` writes for a code and a message -/
  errorPage : ℕ → String → List Char
  /-- `request_version` is `HTTP/0.9` -/
  http09 : Bool
  /-- the descriptor of the connection -/
  connection : ℤ
  /-- what the `n`-th write to the client raises -/
  sendFault : ℕ → Option PyError
  /-- what a line of the request log on standard error raises -/
  logFault : Option PyError
  fileFault : FileStep → Option PyError
  /-- how much of the temporary file is written before `writeTemporary` raises -/
  written : ℕ
  /-- what can be read from an open file descriptor, `none` for one that is not open -/
  descriptor : ℤ → Option (List UInt8)

namespace World

def heads (w : World) : List (List HeadLine) := w.trace.filterMap Action.head?

def bodies (w : World) : List Value := w.trace.filterMap Action.body?

def start (server : Server) (files : Str → Option (List UInt8)) : World where
  server := server
  files := files
  headersBuffer := []
  sends := 0
  connectionClosed := false
  stderrClosed := false
  trace := []

end World

open Program

/-- `int(headers.get("Content-Length", "0") or 0)` -/
def contentLength (r : Request) : Except PyError ℤ :=
  match r.header "Content-Length" with
  | none | some "" => .ok 0
  | some text => (pyIntOf text).elim (.error (.valueError "invalid literal for int()")) .ok

/-- The length of the body is read, and the client has sent less. -/
def Request.stalls (r : Request) : Bool :=
  match contentLength r with
  | .ok n => decide (0 < n) && r.waits n
  | .error _ => false

/-- Where `rfile.read` is called for the body; what it returns is taken from `Request.read`. -/
def awaitBody (r : Request) : Handler Unit := if r.stalls then wait else pure ()

def record (items : List (String × Value)) : Value := .dict (items.map fun p => (str p.1, p.2))

def emit (a : Action) : Handler Unit := modify fun w => { w with trace := w.trace ++ [a] }

section connection

variable (env : Environment)

def badDescriptor : PyError := .osError "Bad file descriptor"

def Environment.writeFault (w : World) : Option PyError :=
  if w.connectionClosed then some badDescriptor else env.sendFault w.sends

def transmit (a : Action) : Handler Unit := do
  let w ← read
  modify fun w => { w with sends := w.sends + 1 }
  match env.writeFault w with
  | some e => raise e
  | none => emit a

def Environment.lineFault (w : World) : Option PyError :=
  if w.stderrClosed then some badDescriptor else env.logFault

def logRequest : Handler Unit := do
  let w ← read
  match env.lineFault w with
  | some e => raise e
  | none => pure ()

/-- Nothing is put into the head of a reply to HTTP/0.9, which has none. -/
def bufferLine (line : HeadLine) : Handler Unit :=
  if env.http09 then pure ()
  else modify fun w => { w with headersBuffer := w.headersBuffer ++ [line] }

/-- `send_response`, less the `Server` and `Date` fields that it adds. -/
def sendResponse (code : HTTPStatus) : Handler Unit := do
  logRequest env
  bufferLine env (.status code.code)

def sendHeader (name value : String) : Handler Unit := bufferLine env (.field name value)

def endHeaders : Handler Unit :=
  if env.http09 then pure ()
  else do
    let w ← read
    transmit env (.head w.headersBuffer)
    modify fun w => { w with headersBuffer := [] }

def writeBody (data : List Char) : Handler Unit := transmit env (.write data)

def sendError (code : HTTPStatus) (message : String) : Handler Unit := do
  let page := env.errorPage code.code message
  sendResponse env code
  sendHeader env "Connection" "close"
  sendHeader env "Content-Type" "text/html;charset=utf-8"
  sendHeader env "Content-Length" (toString page.length)
  endHeaders env
  writeBody env page

section rules

variable {env} {I J : World → Prop} {E : PyError → World → Prop} {U : World → Prop}

theorem triple_transmit {a : Action}
    (hsent : ∀ w, I w → env.writeFault w = none → J { w with sends := w.sends + 1, trace := w.trace ++ [a] })
    (hraised : ∀ w e, I w → env.writeFault w = some e → E e { w with sends := w.sends + 1 }) :
    Triple I (transmit env a) (fun _ => J) E U := by
  refine triple_read_bind fun w hw => ?_
  refine Triple.bind (R := fun _ v => v = { w with sends := w.sends + 1 }) ?_ fun _ => ?_
  · apply triple_modify
    rintro _ rfl
    rfl
  cases hfault : env.writeFault w with
  | some e =>
    apply triple_raise
    rintro _ rfl
    exact hraised w e hw hfault
  | none =>
    apply triple_modify
    rintro _ rfl
    exact hsent w hw hfault

theorem triple_logRequest (hlogged : ∀ w, I w → env.lineFault w = none → J w)
    (hraised : ∀ w e, I w → env.lineFault w = some e → E e w) : Triple I (logRequest env) (fun _ => J) E U := by
  refine triple_read_bind fun w hw => ?_
  cases hfault : env.lineFault w with
  | some e =>
    apply triple_raise
    rintro _ rfl
    exact hraised _ e hw hfault
  | none =>
    apply triple_pure
    rintro _ rfl
    exact hlogged _ hw hfault

theorem Environment.writeFault_eq {w : World} (h : w.connectionClosed = false) : env.writeFault w = env.sendFault w.sends := by
  rw [Environment.writeFault, h, if_neg Bool.false_ne_true]

theorem Environment.lineFault_eq {w : World} (h : w.stderrClosed = false) : env.lineFault w = env.logFault := by
  rw [Environment.lineFault, h, if_neg Bool.false_ne_true]

end rules

end connection

structure Environment.Connected (env : Environment) : Prop where
  sends : ∀ n, env.sendFault n = none
  logs : env.logFault = none

def Environment.idle : Environment where
  authorizeBearer _ _ := ⟨true, "ops"⟩
  publish _ := .ok ⟨.none, .none⟩
  ack _ _ _ := .ok (.bool true)
  subscribe _ _ := .ok ⟨fun _ => .ok none, none, none⟩
  handleMusclePost _ := pure false
  newRequestId := "rid"
  time _ := 0
  float _ := none
  floatRepr _ := []
  depth := 100
  errorPage _ _ := []
  http09 := false
  connection := 4
  sendFault _ := none
  logFault := none
  fileFault _ := none
  written := 0
  descriptor _ := none

def authorizeBearer (env : Environment) (authorization : Option String) (scopes : List String) :
    Handler Verdict := do
  let verdict := env.authorizeBearer authorization scopes
  emit (.authorize scopes verdict)
  return verdict

end TrinityOS.Service
