import TrinityOS.MemorySyscalls

namespace TrinityOS

inductive Continuation where
  | wakeTarget (targetId : ℤ) (messageId : String)
  | blockReceiver (processId : ℤ)

/-- The handlers of `ipc_send` and `ipc_receive` change the message queues under `_ipc_lock`
alone and take `_proc_lock` only afterwards: a scheduler pass fits in between. -/
inductive Progress where
  | finished (outcome : Except PyException SyscallResult)
  | needsProcLock (rest : Continuation)

namespace SystemTables

def appendMessage (t : SystemTables) (targetId : ℤ) (message : IPCMessage) : SystemTables :=
  { t with messageQueues := t.messageQueues.set targetId (t.messageQueues.getD targetId [] ++ [message]) }

def wakeTarget (t : SystemTables) (targetId : ℤ) : SystemTables :=
  if t.blockedProcesses.get? targetId = some "ipc_receive" then
    { t.setState targetId .ready with
      blockedProcesses := t.blockedProcesses.del targetId
      readyQueue := t.readyQueue ++ [targetId] }
  else t

end SystemTables

def Continuation.run (t : SystemTables) : Continuation → Handled
  | .wakeTarget targetId messageId => (t.wakeTarget targetId, .ok (.ok (.messageId messageId)))
  | .blockReceiver processId =>
    match t.blockProcess processId "ipc_receive" with
    | (t, .error e) => (t, .error e)
    | (t, .ok ()) => (t, .ok (.ok (.status "blocked")))

def Progress.complete : SystemTables × Progress → Handled
  | (t, .finished outcome) => (t, outcome)
  | (t, .needsProcLock rest) => rest.run t

def newMessage (messageId : String) (messageType : IPCMessageType) (senderId targetId : ℤ)
    (subject payload : PyValue) (timestamp : Float) : IPCMessage :=
  { messageId, messageType, senderId, targetId, subject, payload, timestamp }

def ipcSendLocked (uuid4 : ℕ → String) (t : SystemTables) (processId : ℤ)
    (targetId subject messageType payload : PyValue) (now : ℕ → Float) : SystemTables × Progress :=
  if processId ∉ t.processes then (t, .finished (.ok (.failure "Sender process does not exist")))
  else
    match targetId.intKey with
    | .error e => (t, .finished (.error e))
    | .ok none => (t, .finished (.ok (.failure "Target process does not exist")))
    | .ok (some targetId) =>
      if targetId.val ∉ t.processes then (t, .finished (.ok (.failure "Target process does not exist")))
      else
        let messageId := uuid4 t.uuidCount
        let t := t.drawUuid
        match PyValue.member "IPCMessageType" IPCMessageType.ofValue? messageType with
        | .error e => (t, .finished (.error e))
        | .ok messageType =>
          let message := newMessage messageId messageType processId targetId.val subject payload (now 0)
          (t.appendMessage targetId.val message, .needsProcLock (.wakeTarget targetId.val messageId))

def syscallIpcSend (uuid4 : ℕ → String) (t : SystemTables) (processId : ℤ)
    (targetId subject messageType payload : PyValue) (now : ℕ → Float) : Handled :=
  Progress.complete (ipcSendLocked uuid4 t processId targetId subject messageType payload now)

def IPCMessage.received (message : IPCMessage) : SyscallValue :=
  .message message.messageId message.messageType.name message.senderId message.subject message.payload
    message.timestamp message.headers

def ipcReceiveLocked (t : SystemTables) (processId : ℤ) (wait : PyValue) : SystemTables × Progress :=
  if processId ∉ t.processes then (t, .finished (.ok (.failure "Process does not exist")))
  else
    match t.messageQueues.getD processId [] with
    | message :: messages =>
      ({ t with messageQueues := t.messageQueues.set processId messages },
        .finished (.ok (.ok message.received)))
    | [] =>
      if ¬ wait.truthy then (t, .finished (.ok (.ok .none)))
      else (t, .needsProcLock (.blockReceiver processId))

def syscallIpcReceive (t : SystemTables) (processId : ℤ) (wait : PyValue) : Handled :=
  Progress.complete (ipcReceiveLocked t processId wait)

end TrinityOS
