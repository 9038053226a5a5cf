import TrinityOS.Service.Events
import TrinityOS.Service.Kernel

namespace TrinityOS.Service

open Program

namespace APIHandler

section replies

variable (env : Environment)

/-- `_json` of the handler class; of what is raised it drops a broken pipe in the body alone. -/
def json (obj : Value) (code : HTTPStatus := .ok) : Handler Unit := do
  let data ← ofExcept (dumps env.floatRepr obj)
  sendResponse env code
  sendHeader env "Content-Type" "application/json"
  sendHeader env "Content-Length" (toString data.length)
  endHeaders env
  match ← (writeBody env data).attempt with
  | .ok () | .error .brokenPipeError => return ()
  | .error e => raise e

/-- `return self._json(obj, code)`, which ends the handling of the request. -/
def answer (obj : Value) (code : HTTPStatus := .ok) : Handler Bool := do
  json env obj code
  return true

def plain (code : HTTPStatus) (data : String) : Handler Unit := do
  sendResponse env code
  sendHeader env "Content-Type" "text/plain"
  endHeaders env
  writeBody env data.toList

end replies

/-- The `try` of `_body`; here bytes that are no UTF-8 are an error. -/
def parseBody (env : Environment) (r : Request) : Except PyError Value := do
  let n ← contentLength r
  if n > 0 then
    let raw ← r.read n
    match decodeStrict raw with
    | some [] => loads env.depth "\x7b\x7d".toList
    | some text => loads env.depth text
    | none => .error (.valueError "'utf-8' codec can't decode byte")
  else loads env.depth "\x7b\x7d".toList

def body (env : Environment) (r : Request) : Value :=
  match parseBody env r with
  | .ok v => v
  | .error _ => .dict []

def scopesForPath (path : String) : Option (List String) :=
  if path = "/system/reload" then some ["system:reload"]
  else if path = "/system/drain" ∨ path = "/system/undrain" then some ["system:drain"]
  else none

theorem scopesForPath_of_isEventsPath {path : String} (h : Events.IsEventsPath path) :
    scopesForPath path = none := by
  have hne (other : String) (ho : ¬Events.IsEventsPath other) : path ≠ other := fun heq => ho (heq ▸ h)
  unfold scopesForPath
  rw [if_neg (hne _ (by decide)), if_neg]
  rintro (hp | hp)
  · exact hne _ (by decide) hp
  · exact hne _ (by decide) hp

def IsMusclePath (path : String) : Prop := "/muscle/".toList <+: path.toList

instance (path : String) : Decidable (IsMusclePath path) := inferInstanceAs (Decidable (_ <+: _))

section handlers

variable (env : Environment) (fuel : ℕ) (r : Request)

def doGET : Handler Unit := do
  if r.path = "/healthz" then
    let w ← read
    let ok := w.server.kernel.isSome
    plain env (if ok then .ok else .serviceUnavailable) (if ok then "ok\n" else "unhealthy\n")
  else if r.path = "/readyz" then
    let w ← read
    let ready := w.server.ready.getD true
    plain env (if ready then .ok else .serviceUnavailable) (if ready then "ready\n" else "not-ready\n")
  else
    let handled ← Events.handleEventsGET env r fuel
    if handled then return ()
    else sendError env .notFound "Not found"

def kernelReply (res : Value) : Handler Bool := do
  let success ← ofExcept (res.get "success")
  answer env res (if success.truthy then .ok else .internalServerError)

def systemOp (sub : String) (body : Value) (kernel : TrinityKernel) : Handler Bool := do
  if r.path = "/system/reload" then
    let configPath ← ofExcept (body.get "config_path")
    let res ← kernel.handleReload env sub configPath
    kernelReply env res
  else if r.path = "/system/drain" then
    let res ← kernel.handleDrain env sub true
    kernelReply env res
  else if r.path = "/system/undrain" then
    let res ← kernel.handleDrain env sub false
    kernelReply env res
  else return false

/-- The secured system operations; `true` where the request has been answered. -/
def system : Handler Bool := do
  match scopesForPath r.path with
  | none => return false
  | some scopes => do
    let verdict ← authorizeBearer env (r.header "Authorization") scopes
    if ¬verdict.ok then answer env (Events.failure verdict.sub) .forbidden
    else
      awaitBody r
      let body := body env r
      emit (.readBody body)
      let w ← read
      match w.server.kernel with
      | none => answer env (Events.failure "kernel unavailable") .serviceUnavailable
      | some kernel => systemOp env r verdict.sub body kernel

def doPOST : Handler Unit := do
  let muscle ← if IsMusclePath r.path then env.handleMusclePost r else pure false
  if muscle then return ()
  else
    let handled ← if Events.IsEventsPath r.path then Events.handleEventsPOST env r else pure false
    if handled then return ()
    else
      let answered ← system env r
      if answered then return ()
      else json env (Events.failure "unknown endpoint") .notFound

/-- The method that the base class calls for a request. -/
def serve : Handler Unit :=
  match r.method with
  | .get => doGET env fuel r
  | .post => doPOST env r

end handlers

end APIHandler

end TrinityOS.Service
