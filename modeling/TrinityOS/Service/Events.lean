import TrinityOS.Service.Handler

namespace TrinityOS.Service

open Program

namespace Events

section replies

variable (env : Environment)

/-- `_json` of the events module, whose exceptions are all logged and dropped. -/
def json (obj : Value) (code : HTTPStatus := .ok) : Handler Unit := do
  let sent ← attempt do
    let data ← ofExcept (dumps env.floatRepr obj)
    sendResponse env code
    sendHeader env "Content-Type" "application/json"
    sendHeader env "Content-Length" (toString data.length)
    endHeaders env
    writeBody env data
  match sent with
  | .ok () | .error _ => return ()

/-- `_json(handler, obj, code)`, then `return True`. -/
def answer (obj : Value) (code : HTTPStatus := .ok) : Handler Bool := do
  json env obj code
  return true

def failure (error : String) : Value := record [("success", .bool false), ("error", .text error)]

def failureDetail (error : String) (e : PyError) : Value :=
  record [("success", .bool false), ("error", .text error), ("detail", .text e.message)]

end replies

/-- The length that is read, 0 where the header is no number. -/
def bodyLength (r : Request) : ℤ :=
  match contentLength r with
  | .ok n => n
  | .error _ => 0

def readBody (env : Environment) (r : Request) : Value :=
  if bodyLength r ≤ 0 then .dict []
  else
    match r.read (bodyLength r) with
    | .error _ => .dict []
    | .ok raw =>
      if raw = [] then .dict []
      else
        match loads env.depth (decodeReplace raw) with
        | .ok v => v
        | .error _ => .dict []

/-- `urlsplit(path).path` for a path that starts with `/events/`: it has no scheme and no host,
and what is left to do is to drop tabs and line ends, the fragment and the query. -/
def normPath (path : String) : String :=
  let kept := path.toList.filter (· ∉ ['\t', '\r', '\n'])
  String.ofList ((kept.takeWhile (· ≠ '#')).takeWhile (· ≠ '?'))

def IsEventsPath (path : String) : Prop := "/events/".toList <+: path.toList

instance (path : String) : Decidable (IsEventsPath path) := inferInstanceAs (Decidable (_ <+: _))

section handlers

variable (env : Environment) (r : Request)

def produce (body : Value) (sub : String) : Handler Bool := do
  let topic ← ofExcept (body.get "topic" (.text ""))
  let payload ← ofExcept (body.get "payload")
  let key ← ofExcept (body.get "key" (.text ""))
  let idk ← ofExcept (body.get "idempotency_key")
  if topic.truthy then
    let message : Publication :=
      { topic, payload, key, headers := [("sub", sub)], idempotencyKey := idk }
    emit (.publish message)
    match env.publish message with
    | .ok msg => answer env (record [("success", .bool true), ("id", msg.id), ("ts", msg.ts)])
    | .error e => answer env (failureDetail "broker error" e) .internalServerError
  else answer env (failure "topic required") .badRequest

def ack (body : Value) : Handler Bool := do
  let topic ← ofExcept (body.get "topic" (.text ""))
  let group ← ofExcept (body.get "group" (.text ""))
  let mid ← ofExcept (body.get "id" (.text ""))
  if topic.truthy ∧ group.truthy ∧ mid.truthy then
    emit (.ack topic group mid)
    match env.ack topic group mid with
    | .ok ok2 => answer env (record [("success", .bool ok2.truthy)])
    | .error _ => answer env (failure "broker error") .internalServerError
  else answer env (failure "topic/group/id required") .badRequest

/-- `_norm_path` is applied once, and both the scopes and the endpoint are chosen by its result. -/
def handleEventsPOST : Handler Bool :=
  if ¬IsEventsPath r.path then return false
  else do
    let path := normPath r.path
    match
      if path = "/events/produce" then some ["events:produce"]
      else if path = "/events/ack" then some ["events:consume"]
      else none with
    | none => answer env (failure "unknown endpoint") .notFound
    | some scopes => do
      let verdict ← authorizeBearer env (r.header "Authorization") scopes
      if ¬verdict.ok then answer env (failure verdict.sub) .forbidden
      else
        awaitBody r
        let body := readBody env r
        emit (.readBody body)
        if path = "/events/produce" then produce env body verdict.sub
        else if path = "/events/ack" then ack env body
        else answer env (failure "not handled") .notFound

/-- `float(handler.headers.get("X-Timeout", "25") or 25.0)`, 25 where that raises. -/
def timeout : Float :=
  match r.header "X-Timeout" with
  | none => (env.float "25").getD 25
  | some "" => 25
  | some text => (env.float text).getD 25

def messageFields (msg : Message) : Value :=
  record [("id", msg.id), ("topic", msg.topic), ("ts", msg.ts), ("headers", msg.headers),
    ("payload", msg.payload)]

/-- `subc.close()` where there is such a method; what it raises is dropped. -/
def close (subc : Subscription) : Handler Unit :=
  match subc.close with
  | some _ => emit .close
  | none => return ()

def cleanup (subc : Subscription) : Handler Unit :=
  match subc.close, subc.unsubscribe with
  | some _, _ => emit .close
  | none, some _ => emit .unsubscribe
  | none, none => return ()

def poll (subc : Subscription) (timeout : Float) : Handler Bool := do
  emit (.poll timeout)
  let msg := match subc.poll 0 with
    | .ok msg => msg
    | .error _ => none
  close subc
  match msg with
  | none => answer env (record [("success", .bool true), ("message", .none)])
  | some msg => answer env (record [("success", .bool true), ("message", messageFields msg)])

/-- The writes of one message; nothing is written before its JSON text is there. -/
def writeMessage (msg : Message) : Handler Unit := do
  let blob ← ofExcept (dumps env.floatRepr (messageFields msg))
  writeBody env "event: message\n".toList
  writeBody env ("data: ".toList ++ blob ++ "\n\n".toList)

/-- One round of the streaming loop, `false` where it is left. -/
def streamRound (subc : Subscription) (timeout : Float) (i : ℕ) : Handler Bool := do
  if env.time (i + 1) - env.time 0 < timeout then
    emit (.poll 1)
    match subc.poll i with
    | .error _ => return false
    | .ok none => return true
    | .ok (some msg) => do
      match ← (writeMessage env msg).attempt with
      | .ok () => return true
      | .error _ => return false
  else return false

def consume (fuel : ℕ) (subc : Subscription) (timeout : Float) : Handler Bool := do
  sendResponse env .ok
  sendHeader env "Content-Type" "text/event-stream"
  sendHeader env "Cache-Control" "no-cache"
  sendHeader env "Connection" "keep-alive"
  endHeaders env
  rounds (streamRound env subc timeout) fuel 0
  cleanup subc
  return true

/-- `fuel` bounds the rounds of the streaming loop, which ends by the clock alone. -/
def handleEventsGET (fuel : ℕ) : Handler Bool :=
  if ¬IsEventsPath r.path then return false
  else do
    let path := normPath r.path
    if path ∉ ["/events/consume", "/events/poll"] then
      sendError env .notFound "Not found"
      return true
    else
      let verdict ← authorizeBearer env (r.header "Authorization") ["events:consume"]
      if ¬verdict.ok then answer env (failure verdict.sub) .forbidden
      else
        let topic := (r.header "X-Topic").getD ""
        let group := (r.header "X-Group").getD verdict.sub
        let timeout := timeout env r
        if topic = "" then answer env (failure "X-Topic required") .badRequest
        else
          emit (.subscribe topic group)
          match env.subscribe topic group with
          | .error e => answer env (failureDetail "broker unavailable" e) .serviceUnavailable
          | .ok subc =>
            if path = "/events/poll" then poll env subc timeout
            else consume env fuel subc timeout

end handlers

end Events

end TrinityOS.Service
