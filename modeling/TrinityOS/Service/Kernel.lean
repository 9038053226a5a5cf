import TrinityOS.Service.Handler
import Mathlib.Logic.Function.Basic

namespace TrinityOS.Service

open Program

namespace TrinityKernel

def update (f : TrinityKernel → TrinityKernel) : Handler Unit :=
  modify fun w => { w with server := { w.server with kernel := w.server.kernel.map f } }

section reload

variable (env : Environment)

def guardStep (step : FileStep) : Handler Unit :=
  match env.fileFault step with
  | some e => raise e
  | none => pure ()

/-- The file descriptor that `open` takes a value for. -/
def descriptorOf : Value → Option ℤ
  | .int n => some n
  | .bool b => some b.toNat
  | _ => none

def openFile (file : Value) (w : World) : Except PyError (List UInt8) :=
  match file with
  | .str path => (w.files path).elim (.error (.osError "No such file or directory")) .ok
  | .int n => (env.descriptor n).elim (.error badDescriptor) .ok
  | .bool b => (env.descriptor b.toNat).elim (.error badDescriptor) .ok
  | v => .error (.typeError s!"expected str, bytes or os.PathLike object, not {v.typeName}")

/-- A file that is left is closed, also a descriptor that `open` was given: the one of the
connection, or the one of standard error, which is 2. -/
def closeFile (file : Value) : Handler Unit :=
  modify fun w => { w with
    connectionClosed := w.connectionClosed || descriptorOf file = some env.connection
    stderrClosed := w.stderrClosed || descriptorOf file = some 2 }

/-- `with open(file)` and `fh.read()`; that the text is parsed before the file is left makes no
difference. -/
def openRead (file : Value) : Handler (List UInt8) := do
  guardStep env .openConfig
  let w ← read
  let content ← ofExcept (openFile env file w)
  closeFile env file
  guardStep env .readConfig
  return content

/-- `json.load(fh)`. That reading a text file turns every line end into a line feed makes no
difference: outside strings they are white space, and inside they are refused. -/
def jsonLoad (content : List UInt8) : Except PyError Value :=
  match decodeStrict content with
  | some text => loads env.depth text
  | none => .error (.valueError "'utf-8' codec can't decode byte")

/-- `_load_config` -/
def loadConfig (path : Str) : Handler Value := do
  let content ← openRead env (.str path)
  ofExcept (jsonLoad env content)

/-- `__init__` -/
def init (configFile : Str) : Handler TrinityKernel := do
  let config ← loadConfig env configFile
  return { configFile, config, ready := true, apiServer := false }

/-- `f"{file}.tmp"` for what `open` accepts. -/
def temporary : Value → Str
  | .str path => path ++ str ".tmp"
  | .int n => str (toString n ++ ".tmp")
  | .bool true => str "True.tmp"
  | .bool false => str "False.tmp"
  | _ => str ".tmp"

def ascii (s : List Char) : List UInt8 := s.map fun c => c.toNat.toUInt8

/-- `json.dump(value, fh, indent=2)` to the file `tmp`, just opened and empty. -/
def jsonDump (value : Value) (tmp : Str) : Handler Unit := do
  let text ← ofExcept (dumpIndented env.floatRepr 0 value)
  match env.fileFault .writeTemporary with
  | some e => do
    modify fun w => { w with
      files := Function.update w.files tmp (some (ascii (text.take env.written))) }
    raise e
  | none => modify fun w => { w with files := Function.update w.files tmp (some (ascii text)) }

/-- `os.replace(tmp, file)` -/
def replaceFile (tmp : Str) (file : Value) : Handler Unit := do
  guardStep env .replace
  match file with
  | .str path => modify fun w => { w with
      files := Function.update (Function.update w.files tmp none) path (w.files tmp) }
  | v => raise (.typeError s!"replace: dst should be string, bytes or os.PathLike, not {v.typeName}")

/-- `config_path or self.config_file` -/
def cfgFile (self : TrinityKernel) (configPath : Value) : Value :=
  if configPath.truthy then configPath else .str self.configFile

/-- What the `try` of `handle_reload` does with the content of the file, up to the log entry, whose
keys it returns. -/
def install (file : Value) (content : List UInt8) : Handler Value := do
  let newCfg ← ofExcept (jsonLoad env content)
  let tmp := temporary file
  guardStep env .openTemporary
  modify fun w => { w with files := Function.update w.files tmp (some []) }
  jsonDump env newCfg tmp
  replaceFile env tmp file
  update fun k => { k with config := newCfg }
  match newCfg with
  | .dict items => return .list (items.map fun p => .str p.1)
  | v => raise (.attributeError v.typeName "keys")

def reload (self : TrinityKernel) (configPath : Value) : Handler Value := do
  let content ← openRead env (self.cfgFile configPath)
  install env (self.cfgFile configPath) content

/-- What has been sent and recorded and what can be sent, which the files have no part in. -/
def output (w : World) : List Action × List HeadLine × Bool × Bool :=
  (w.trace, w.headersBuffer, w.connectionClosed, w.stderrClosed)

variable {env}

theorem frames_guardStep (step : FileStep) : Frames output (guardStep env step) := by
  unfold guardStep
  cases env.fileFault step with
  | some e => exact frames_raise e
  | none => exact frames_pure ()

theorem frames_jsonDump (value : Value) (tmp : Str) : Frames output (jsonDump env value tmp) := by
  refine (frames_ofExcept _).bind fun text => ?_
  cases env.fileFault .writeTemporary with
  | some e =>
    apply Frames.bind
    · exact frames_modify fun _ => rfl
    · exact fun _ => frames_raise e
  | none => exact frames_modify fun _ => rfl

theorem frames_replaceFile (tmp : Str) (file : Value) : Frames output (replaceFile env tmp file) := by
  refine (frames_guardStep _).bind fun _ => ?_
  cases file with
  | str path => exact frames_modify fun _ => rfl
  | _ => exact frames_raise _

theorem frames_install (file : Value) (content : List UInt8) : Frames output (install env file content) := by
  refine (frames_ofExcept _).bind fun newCfg => (frames_guardStep _).bind fun _ => ?_
  apply Frames.bind
  · exact frames_modify fun _ => rfl
  intro _
  refine (frames_jsonDump _ _).bind fun _ => (frames_replaceFile _ _).bind fun _ => ?_
  apply Frames.bind
  · exact frames_modify fun _ => rfl
  intro _
  cases newCfg with
  | dict items => exact frames_pure _
  | _ => exact frames_raise _

/-- Reading the file closes a descriptor that a reply needs, for itself or for the request log. -/
def Closes (env : Environment) (file : Value) : Prop :=
  ∃ n, descriptorOf file = some n ∧ (n = env.connection ∨ n = 2) ∧ env.fileFault .openConfig = none ∧
    (env.descriptor n).isSome = true

theorem openFile_of_descriptor {file : Value} {n : ℤ} (h : descriptorOf file = some n) (w : World) :
    openFile env file w = (env.descriptor n).elim (.error badDescriptor) .ok := by
  cases file with
  | int m => exact Option.some.inj h ▸ rfl
  | bool b => exact Option.some.inj h ▸ rfl
  | _ => cases h

theorem frames_openRead {file : Value} (h : ¬Closes env file) : Frames output (openRead env file) := by
  by_cases hneeded : ∃ n, descriptorOf file = some n ∧ (n = env.connection ∨ n = 2)
  · -- The file is not opened, and so not closed either.
    obtain ⟨n, hn, hneeds⟩ := hneeded
    cases hfault : env.fileFault .openConfig with
    | some e =>
      have hraise : openRead env file = raise e := by
        unfold openRead guardStep
        rw [hfault]
        rfl
      rw [hraise]
      exact frames_raise e
    | none =>
      have hdescriptor : env.descriptor n = none := by
        rw [← Option.not_isSome_iff_eq_none]
        exact fun hsome => h ⟨n, hn, hneeds, hfault, hsome⟩
      refine (frames_guardStep _).bind fun _ => frames_read.bind fun w => ?_
      rw [openFile_of_descriptor hn, hdescriptor]
      exact frames_raise _
  · have hconnection : descriptorOf file ≠ some env.connection := fun hn => hneeded ⟨_, hn, .inl rfl⟩
    have hstderr : descriptorOf file ≠ some 2 := fun hn => hneeded ⟨_, hn, .inr rfl⟩
    unfold openRead
    refine (frames_guardStep _).bind fun _ => frames_read.bind fun w => (frames_ofExcept _).bind fun content => ?_
    apply Frames.bind
    · exact frames_modify fun w => by simp [output, hconnection, hstderr]
    · exact fun _ => (frames_guardStep _).bind fun _ => frames_pure content

def Unreachable (w : World) : Prop := w.connectionClosed = true ∨ w.stderrClosed = true

theorem Unreachable.of_output {w v : World} (hout : output w = output v) (h : Unreachable w) : Unreachable v := by
  simp only [output, Prod.mk.injEq] at hout
  rwa [Unreachable, ← hout.2.2.1, ← hout.2.2.2]

theorem triple_openRead_closes {file : Value} (h : Closes env file) {I : World → Prop} :
    Triple I (openRead env file) (fun _ => Unreachable) (fun _ => Unreachable) fun _ => False := by
  obtain ⟨n, hn, hneeds, hfault, hdescriptor⟩ := h
  obtain ⟨content, hcontent⟩ := Option.isSome_iff_exists.mp hdescriptor
  have hopens : guardStep env .openConfig = pure () := by
    unfold guardStep
    rw [hfault]
  unfold openRead
  rw [hopens]
  refine (triple_pure (R := fun _ => I) fun _ h => h).bind fun _ => triple_read_bind fun w hw => ?_
  rw [openFile_of_descriptor hn, hcontent, Option.elim_some, ofExcept_ok_bind]
  apply Triple.bind (R := fun _ => Unreachable)
  · refine triple_modify fun v _ => ?_
    rcases hneeds with rfl | rfl
    · exact .inl (by simp [hn])
    · exact .inr (by simp [hn])
  · intro _
    exact ((frames_guardStep _).bind fun _ => frames_pure content).triple fun _ _ hout => Unreachable.of_output hout

theorem frames_reload {self : TrinityKernel} {configPath : Value} (h : ¬Closes env (self.cfgFile configPath)) :
    Frames output (reload env self configPath) :=
  (frames_openRead h).bind fun content => frames_install _ content

theorem triple_reload_closes {self : TrinityKernel} {configPath : Value}
    (h : Closes env (self.cfgFile configPath)) {I : World → Prop} :
    Triple I (reload env self configPath) (fun _ => Unreachable) (fun _ => Unreachable) fun _ => False :=
  (triple_openRead_closes h).bind fun content =>
    (frames_install _ content).triple fun _ _ hout => Unreachable.of_output hout

variable (env)

def handleReload (self : TrinityKernel) (actor : String) (configPath : Value) : Handler Value := do
  emit (.handleReload actor configPath)
  let rid := env.newRequestId
  emit (.logRun actor "system.reload" "config" rid)
  match ← (reload env self configPath).attempt with
  | .ok keys => do
    emit (.logFinish "ok" [("changed", keys)])
    return record [("success", .bool true), ("message", .text "config reloaded"), ("rid", .text rid)]
  | .error e => do
    emit (.logFinish "fail" [("error", .text e.message)])
    return record [("success", .bool false), ("error", .text e.message), ("rid", .text rid)]

end reload

/-- `setattr(self.api_server, "ready", ready)` where there is a server. -/
def setReady (self : TrinityKernel) (ready : Bool) : Handler Unit :=
  if self.apiServer then
    modify fun w => { w with server := { w.server with ready := some ready } }
  else pure ()

/-- Nothing in its `try` raises, so that the `except` clause is left out. -/
def handleDrain (env : Environment) (self : TrinityKernel) (actor : String) (enable : Bool) :
    Handler Value := do
  emit (.handleDrain actor enable)
  let rid := env.newRequestId
  emit (.logRun actor "system.drain" "instance" rid)
  let ready := !enable
  update fun k => { k with ready := ready }
  setReady self ready
  emit (.logFinish "ok" [("ready", .bool ready)])
  return record [("success", .bool true),
    ("message", .text (if enable then "drain enabled" else "drain cleared")),
    ("ready", .bool ready), ("rid", .text rid)]

end TrinityKernel

end TrinityOS.Service
