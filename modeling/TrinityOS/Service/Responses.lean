import TrinityOS.Service.APIHandler

namespace TrinityOS.Service

open Program

/-- The client stays connected, and what the broker hands out is JSON-serialisable. -/
structure Environment.Cooperative (env : Environment) : Prop extends env.Connected where
  published : ∀ m msg, env.publish m = .ok msg →
    (∃ text, dumps env.floatRepr msg.id = .ok text) ∧ ∃ text, dumps env.floatRepr msg.ts = .ok text
  delivered : ∀ topic group subc i msg, env.subscribe topic group = .ok subc →
    subc.poll i = .ok (some msg) → ∃ text, dumps env.floatRepr (Events.messageFields msg) = .ok text

structure Environment.Versioned (env : Environment) : Prop extends env.Cooperative where
  version : env.http09 = false

/-- How far the answer to a request is: the heads sent, the head being written, and the bodies
that have been parsed; and that it can still be sent. -/
structure Stage (heads : List (List HeadLine)) (buffer : List HeadLine) (bodies : List Value)
    (w : World) : Prop where
  heads : w.heads = heads
  buffer : w.headersBuffer = buffer
  bodies : w.bodies = bodies
  connection : w.connectionClosed = false
  stderr : w.stderrClosed = false

def IsHead (lines : List HeadLine) : Prop :=
  ∃ code, ∃ fields : List (String × String),
    lines = .status code :: fields.map fun f => .field f.1 f.2

def Answered (bodies : List Value) (w : World) : Prop := ∃ lines, IsHead lines ∧ Stage [lines] [] bodies w

section stages

variable {hs : List (List HeadLine)} {buffer : List HeadLine} {bs : List Value} {w v : World}
  {E : PyError → World → Prop} {U : World → Prop}

theorem Stage.append (h : Stage hs buffer bs w) (a : Action) :
    Stage (hs ++ a.head?.toList) buffer (bs ++ a.body?.toList) { w with trace := w.trace ++ [a] } := by
  refine ⟨?_, h.buffer, ?_, h.connection, h.stderr⟩
  · rw [← h.heads, World.heads, List.filterMap_append]
    cases ha : a.head? <;> simp [World.heads, ha]
  · rw [← h.bodies, World.bodies, List.filterMap_append]
    cases ha : a.body? <;> simp [World.bodies, ha]

theorem Stage.of_output (hout : TrinityKernel.output w = TrinityKernel.output v)
    (h : Stage hs buffer bs w) : Stage hs buffer bs v := by
  simp only [TrinityKernel.output, Prod.mk.injEq] at hout
  obtain ⟨ht, hb, hconnection, hstderr⟩ := hout
  refine ⟨?_, hb.symm.trans h.buffer, ?_, hconnection.symm.trans h.connection, hstderr.symm.trans h.stderr⟩
  · rw [World.heads, ← ht]
    exact h.heads
  · rw [World.bodies, ← ht]
    exact h.bodies

theorem Stage.append_other (h : Stage hs buffer bs w) {a : Action} (hh : a.head? = none) (hb : a.body? = none) :
    Stage hs buffer bs { w with trace := w.trace ++ [a] } := by
  have happend := h.append a
  rw [hh, hb] at happend
  simpa using happend

theorem Stage.sent (h : Stage hs buffer bs w) : Stage hs buffer bs { w with sends := w.sends + 1 } :=
  ⟨h.heads, h.buffer, h.bodies, h.connection, h.stderr⟩

theorem triple_emit {a : Action} (hh : a.head? = none) (hb : a.body? = none) :
    Triple (Stage hs buffer bs) (emit a) (fun _ => Stage hs buffer bs) E U :=
  triple_modify fun _ h => h.append_other hh hb

theorem triple_parsed {body : Value} :
    Triple (Stage [] [] []) (emit (.readBody body)) (fun _ => Stage [] [] [body]) E U :=
  triple_modify fun _ h => h.append (.readBody body)

theorem triple_authorized {α : Type} {env : Environment} {authorization : Option String}
    {scopes : List String} {k : Verdict → Handler α} {R : α → World → Prop}
    (hk : Triple (Stage hs buffer bs) (k (env.authorizeBearer authorization scopes)) R E U) :
    Triple (Stage hs buffer bs) (authorizeBearer env authorization scopes >>= k) R E U := by
  change Triple _ (emit (.authorize scopes (env.authorizeBearer authorization scopes)) >>= fun _ =>
    k (env.authorizeBearer authorization scopes)) R E U
  exact (triple_emit rfl rfl).bind fun _ => hk

theorem triple_awaitBody {r : Request} {I : World → Prop} (hwait : r.stalls = true → ∀ w, I w → U w) :
    Triple I (awaitBody r) (fun _ w => I w ∧ r.stalls = false) E U :=
  Triple.ite (fun hstalls => triple_wait (hwait hstalls)) fun hread => triple_pure fun _ h => ⟨h, by simpa using hread⟩

variable {env : Environment} (henv : env.Versioned)

include henv

theorem triple_bufferLine {line : HeadLine} :
    Triple (Stage hs buffer bs) (bufferLine env line) (fun _ => Stage hs (buffer ++ [line]) bs) E U := by
  unfold bufferLine
  rw [if_neg (by simp [henv.version])]
  exact triple_modify fun _ h => ⟨h.heads, by rw [h.buffer], h.bodies, h.connection, h.stderr⟩

theorem triple_sendResponse {code : HTTPStatus} :
    Triple (Stage hs [] bs) (sendResponse env code) (fun _ => Stage hs [.status code.code] bs) E U := by
  refine (triple_logRequest (fun w hw _ => hw) fun w e hw hfault => ?_).bind fun _ => triple_bufferLine henv
  rw [Environment.lineFault_eq hw.stderr, henv.logs] at hfault
  cases hfault

theorem triple_sendHeader {name value : String} :
    Triple (Stage hs buffer bs) (sendHeader env name value)
      (fun _ => Stage hs (buffer ++ [.field name value]) bs) E U :=
  triple_bufferLine henv

theorem triple_transmit_connected {I J : World → Prop} {a : Action} (hopen : ∀ w, I w → w.connectionClosed = false)
    (h : ∀ w, I w → J { w with sends := w.sends + 1, trace := w.trace ++ [a] }) :
    Triple I (transmit env a) (fun _ => J) E U := by
  refine triple_transmit (fun w hw _ => h w hw) fun w e hw hfault => ?_
  rw [Environment.writeFault_eq (hopen w hw), henv.sends] at hfault
  cases hfault

theorem triple_writeBody (data : List Char) :
    Triple (Answered bs) (writeBody env data) (fun _ => Answered bs) E U := by
  apply triple_transmit_connected henv
  · rintro w ⟨lines, -, hst⟩
    exact hst.connection
  · rintro w ⟨lines, hl, hst⟩
    exact ⟨lines, hl, hst.sent.append_other rfl rfl⟩

theorem triple_endHeaders {lines : List HeadLine} (hl : IsHead lines) :
    Triple (Stage [] lines bs) (endHeaders env) (fun _ => Answered bs) E U := by
  unfold endHeaders
  rw [if_neg (by simp [henv.version])]
  refine triple_read_bind fun w hst => ?_
  rw [hst.buffer]
  refine Triple.bind (R := fun _ => Stage [lines] lines bs) ?_ fun _ => ?_
  · apply triple_transmit_connected henv
    · rintro v rfl
      exact hst.connection
    · rintro v rfl
      simpa [Action.head?, Action.body?] using hst.sent.append (.head lines)
  · exact triple_modify fun v h => ⟨lines, hl, h.heads, rfl, h.bodies, h.connection, h.stderr⟩

section replies

variable {code : HTTPStatus} {obj : Value}

theorem triple_reply (hobj : ∃ text, dumps env.floatRepr obj = .ok text)
    {p : List Char → Handler Unit} {R : Unit → World → Prop}
    (hp : ∀ data, Triple (Answered bs) (p data) R E U) :
    Triple (Stage [] [] bs) (do
      let data ← ofExcept (dumps env.floatRepr obj)
      sendResponse env code
      sendHeader env "Content-Type" "application/json"
      sendHeader env "Content-Length" (toString data.length)
      endHeaders env
      p data) R E U := by
  obtain ⟨data, hdata⟩ := hobj
  let fields := [("Content-Type", "application/json"), ("Content-Length", toString data.length)]
  rw [hdata, ofExcept_ok_bind]
  refine (triple_sendResponse henv).bind fun _ => (triple_sendHeader henv).bind fun _ => ?_
  refine (triple_sendHeader henv).bind fun _ => ?_
  exact (triple_endHeaders henv ⟨_, fields, rfl⟩).bind fun _ => hp data

theorem Events.triple_json (hobj : ∃ text, dumps env.floatRepr obj = .ok text) :
    Triple (Stage [] [] bs) (Events.json env obj code) (fun _ => Answered bs) E U := by
  refine Triple.bind (R := fun sent w => (∃ u, sent = .ok u) ∧ Answered bs w) ?_ fun sent => ?_
  · apply Triple.attempt
    apply triple_reply henv hobj
    intro data
    exact (triple_writeBody henv data).weaken fun _ _ h => ⟨⟨(), rfl⟩, h⟩
  · split
    · exact triple_pure fun _ h => h.2
    · exact triple_pure fun _ h => h.2

theorem Events.triple_answer (hobj : ∃ text, dumps env.floatRepr obj = .ok text) :
    Triple (Stage [] [] bs) (Events.answer env obj code) (fun b w => b = true ∧ Answered bs w) E U :=
  (Events.triple_json henv hobj).bind fun _ => triple_pure fun _ h => ⟨rfl, h⟩

theorem APIHandler.triple_json (hobj : ∃ text, dumps env.floatRepr obj = .ok text) :
    Triple (Stage [] [] bs) (APIHandler.json env obj code) (fun _ => Answered bs) E U := by
  apply triple_reply henv hobj
  intro data
  refine Triple.bind (R := fun sent w => sent = .ok () ∧ Answered bs w) ?_ fun sent => ?_
  · apply Triple.attempt
    exact (triple_writeBody henv data).weaken fun _ _ h => ⟨rfl, h⟩
  · split
    · exact triple_pure fun _ h => h.2
    · exact triple_pure fun _ h => h.2
    · rintro w ⟨h, -⟩
      cases h

theorem APIHandler.triple_answer (hobj : ∃ text, dumps env.floatRepr obj = .ok text) :
    Triple (Stage [] [] bs) (APIHandler.answer env obj code) (fun b w => b = true ∧ Answered bs w)
      E U :=
  (APIHandler.triple_json henv hobj).bind fun _ => triple_pure fun _ h => ⟨rfl, h⟩

theorem APIHandler.triple_plain (data : String) :
    Triple (Stage [] [] bs) (APIHandler.plain env code data) (fun _ => Answered bs) E U := by
  refine (triple_sendResponse henv).bind fun _ => (triple_sendHeader henv).bind fun _ => ?_
  refine (triple_endHeaders henv ⟨_, [("Content-Type", "text/plain")], rfl⟩).bind fun _ => ?_
  exact triple_writeBody henv _

theorem triple_sendError (message : String) :
    Triple (Stage [] [] bs) (sendError env code message) (fun _ => Answered bs) E U := by
  let length := toString (env.errorPage code.code message).length
  let fields := [("Connection", "close"), ("Content-Type", "text/html;charset=utf-8"),
    ("Content-Length", length)]
  refine (triple_sendResponse henv).bind fun _ => (triple_sendHeader henv).bind fun _ => ?_
  refine (triple_sendHeader henv).bind fun _ => (triple_sendHeader henv).bind fun _ => ?_
  exact (triple_endHeaders henv ⟨_, fields, rfl⟩).bind fun _ => triple_writeBody henv _

end replies

end stages

section records

variable {floatRepr : Float → List Char}

theorem dumps_record {items : List (String × Value)}
    (h : ∀ p ∈ items, ∃ text, dumps floatRepr p.2 = .ok text) :
    ∃ text, dumps floatRepr (record items) = .ok text := by
  have hparts : ∃ parts, dumpsMembers floatRepr (items.map fun p => (str p.1, p.2)) = .ok parts := by
    induction items with
    | nil => exact ⟨[], rfl⟩
    | cons p items ih =>
      obtain ⟨part, hp⟩ := h p (List.mem_cons_self ..)
      obtain ⟨parts, hps⟩ := ih fun q hq => h q (List.mem_cons_of_mem _ hq)
      refine ⟨(dumpsString (str p.1) ++ ':' :: ' ' :: part) :: parts, ?_⟩
      rw [List.map_cons, dumpsMembers, hp, hps]
      rfl
  obtain ⟨parts, hps⟩ := hparts
  exact ⟨_, by rw [record, dumps, hps]; rfl⟩

theorem dumps_failure (error : String) : ∃ text, dumps floatRepr (Events.failure error) = .ok text :=
  dumps_record (by simp [dumps, Value.text])

theorem dumps_failureDetail (error : String) (e : PyError) :
    ∃ text, dumps floatRepr (Events.failureDetail error e) = .ok text :=
  dumps_record (by simp [dumps, Value.text])

end records

section kernel

variable {hs : List (List HeadLine)} {buffer : List HeadLine} {bs : List Value}
  {E : PyError → World → Prop} {U : World → Prop} {env : Environment} {kernel : TrinityKernel}

def IsResult (env : Environment) (res : Value) : Prop :=
  (∃ text, dumps env.floatRepr res = .ok text) ∧ ∃ v, res.get "success" = .ok v

theorem isResult_record {items : List (String × Value)}
    (h : ∀ p ∈ items, ∃ text, dumps env.floatRepr p.2 = .ok text) : IsResult env (record items) :=
  ⟨dumps_record h, _, rfl⟩

theorem triple_handleReload (actor : String) {configPath : Value}
    (hclose : ¬TrinityKernel.Closes env (kernel.cfgFile configPath)) :
    Triple (Stage hs buffer bs) (kernel.handleReload env actor configPath)
      (fun res w => IsResult env res ∧ Stage hs buffer bs w) E U := by
  unfold TrinityKernel.handleReload
  refine (triple_emit rfl rfl).bind fun _ => (triple_emit rfl rfl).bind fun _ => ?_
  refine Triple.bind (R := fun _ => Stage hs buffer bs) ?_ fun result => ?_
  · apply Triple.attempt
    exact (TrinityKernel.frames_reload hclose).triple fun _ _ hout => Stage.of_output hout
  · cases result with
    | ok keys =>
      refine (triple_emit rfl rfl).bind fun _ => triple_pure fun _ h => ⟨?_, h⟩
      exact isResult_record (by simp [dumps, Value.text])
    | error e =>
      refine (triple_emit rfl rfl).bind fun _ => triple_pure fun _ h => ⟨?_, h⟩
      exact isResult_record (by simp [dumps, Value.text])

theorem triple_handleDrain (actor : String) (enable : Bool) :
    Triple (Stage hs buffer bs) (kernel.handleDrain env actor enable)
      (fun res w => IsResult env res ∧ Stage hs buffer bs w) E U := by
  unfold TrinityKernel.handleDrain
  refine (triple_emit rfl rfl).bind fun _ => (triple_emit rfl rfl).bind fun _ => ?_
  refine Triple.bind (R := fun _ => Stage hs buffer bs) ?_ fun _ => ?_
  · exact triple_modify fun _ h => ⟨h.heads, h.buffer, h.bodies, h.connection, h.stderr⟩
  refine Triple.bind (R := fun _ => Stage hs buffer bs) ?_ fun _ => ?_
  · refine Triple.ite (fun _ => ?_) fun _ => triple_pure fun _ h => h
    exact triple_modify fun _ h => ⟨h.heads, h.buffer, h.bodies, h.connection, h.stderr⟩
  refine (triple_emit rfl rfl).bind fun _ => triple_pure fun _ h => ⟨?_, h⟩
  apply isResult_record
  cases enable <;> simp [dumps, Value.text]

end kernel

section events

variable {hs : List (List HeadLine)} {buffer : List HeadLine} {bs : List Value}
  {E : PyError → World → Prop} {U : World → Prop} {env : Environment} {r : Request} {body : Value}

theorem exists_get (hbody : body.isDict = true) (key : String) (default : Value) :
    ∃ v, body.get key default = .ok v := by
  cases body with
  | dict items => exact ⟨_, rfl⟩
  | _ => cases hbody

theorem triple_get (hbody : body.isDict = true) (key : String) (default : Value) :
    Triple (Stage hs buffer bs) (ofExcept (body.get key default)) (fun _ => Stage hs buffer bs) E U := by
  obtain ⟨v, hv⟩ := exists_get hbody key default
  rw [hv]
  exact triple_pure fun _ h => h

theorem triple_emit_answered {a : Action} (hh : a.head? = none) (hb : a.body? = none) :
    Triple (Answered bs) (emit a) (fun _ => Answered bs) E U := by
  refine triple_modify fun _ h => ?_
  obtain ⟨lines, hl, hst⟩ := h
  exact ⟨lines, hl, hst.append_other hh hb⟩

variable (henv : env.Versioned)

include henv

theorem triple_produce (hbody : body.isDict = true) (sub : String) :
    Triple (Stage [] [] bs) (Events.produce env body sub) (fun b w => b = true ∧ Answered bs w)
      E U := by
  refine (triple_get hbody _ _).bind fun topic => (triple_get hbody _ _).bind fun payload => ?_
  refine (triple_get hbody _ _).bind fun key => (triple_get hbody _ _).bind fun idk => ?_
  refine Triple.ite (fun _ => ?_) fun _ => Events.triple_answer henv (dumps_failure _)
  refine (triple_emit rfl rfl).bind fun _ => ?_
  split
  · next msg hmsg =>
    obtain ⟨hid, hts⟩ := henv.published _ msg hmsg
    apply Events.triple_answer henv
    exact dumps_record (by simpa [dumps] using ⟨hid, hts⟩)
  · exact Events.triple_answer henv (dumps_failureDetail _ _)

theorem triple_ack (hbody : body.isDict = true) :
    Triple (Stage [] [] bs) (Events.ack env body) (fun b w => b = true ∧ Answered bs w) E U := by
  refine (triple_get hbody _ _).bind fun topic => (triple_get hbody _ _).bind fun group => ?_
  refine (triple_get hbody _ _).bind fun mid => ?_
  refine Triple.ite (fun _ => ?_) fun _ => Events.triple_answer henv (dumps_failure _)
  refine (triple_emit rfl rfl).bind fun _ => ?_
  split
  · next ok2 _ =>
    apply Events.triple_answer henv
    apply dumps_record
    cases hok : ok2.truthy <;> simp [dumps]
  · exact Events.triple_answer henv (dumps_failure _)

theorem triple_poll {topic group : String} {subc : Subscription}
    (hsub : env.subscribe topic group = .ok subc) (timeout : Float) :
    Triple (Stage [] [] bs) (Events.poll env subc timeout) (fun b w => b = true ∧ Answered bs w)
      E U := by
  unfold Events.poll
  refine (triple_emit rfl rfl).bind fun _ => Triple.bind (R := fun _ => Stage [] [] bs) ?_ fun _ => ?_
  · unfold Events.close
    split
    · exact triple_emit rfl rfl
    · exact triple_pure fun _ h => h
  cases hpoll : subc.poll 0 with
  | error e => exact Events.triple_answer henv (dumps_record (by simp [dumps]))
  | ok msg =>
    cases msg with
    | none => exact Events.triple_answer henv (dumps_record (by simp [dumps]))
    | some msg =>
      have hmsg := henv.delivered _ _ _ _ _ hsub hpoll
      exact Events.triple_answer henv (dumps_record (by simpa [dumps] using hmsg))

theorem triple_streamRound (subc : Subscription) (timeout : Float) (i : ℕ) :
    Triple (Answered bs) (Events.streamRound env subc timeout i) (fun _ => Answered bs) E U := by
  refine Triple.ite (fun _ => ?_) fun _ => triple_pure fun _ h => h
  refine (triple_emit_answered rfl rfl).bind fun _ => ?_
  split
  · exact triple_pure fun _ h => h
  · exact triple_pure fun _ h => h
  · refine Triple.bind (R := fun _ => Answered bs) (Triple.attempt ?_) fun written => ?_
    · refine Triple.bind (R := fun _ => Answered bs) ?_ fun blob => ?_
      · exact triple_ofExcept (fun _ _ _ h => h) fun _ _ _ h => h
      · exact (triple_writeBody henv _).bind fun _ => triple_writeBody henv _
    · rcases written with _ | ⟨⟩
      · exact triple_pure fun _ h => h
      · exact triple_pure fun _ h => h

theorem triple_consume (fuel : ℕ) (subc : Subscription) (timeout : Float)
    (hcut : ∀ w, Answered bs w → U w) :
    Triple (Stage [] [] bs) (Events.consume env fuel subc timeout)
      (fun b w => b = true ∧ Answered bs w) E U := by
  let fields := [("Content-Type", "text/event-stream"), ("Cache-Control", "no-cache"),
    ("Connection", "keep-alive")]
  refine (triple_sendResponse henv).bind fun _ => (triple_sendHeader henv).bind fun _ => ?_
  refine (triple_sendHeader henv).bind fun _ => (triple_sendHeader henv).bind fun _ => ?_
  refine (triple_endHeaders henv ⟨_, fields, rfl⟩).bind fun _ => ?_
  refine (triple_rounds (triple_streamRound henv subc timeout) hcut fuel 0).bind fun _ => ?_
  refine Triple.bind (R := fun _ => Answered bs) ?_ fun _ => triple_pure fun _ h => ⟨rfl, h⟩
  unfold Events.cleanup
  split
  · exact triple_emit_answered rfl rfl
  · exact triple_emit_answered rfl rfl
  · exact triple_pure fun _ h => h

end events

def IsStream (r : Request) : Prop := r.method = .get ∧ Events.normPath r.path = "/events/consume"

def ReadsEventsBody (env : Environment) (r : Request) : Prop :=
  let authorized (scope : String) := (env.authorizeBearer (r.header "Authorization") [scope]).ok = true
  r.method = .post ∧ Events.IsEventsPath r.path ∧
    (Events.normPath r.path = "/events/produce" ∧ authorized "events:produce" ∨
      Events.normPath r.path = "/events/ack" ∧ authorized "events:consume")

def ReadsSystemBody (env : Environment) (r : Request) : Prop :=
  r.method = .post ∧ ∃ scopes, APIHandler.scopesForPath r.path = some scopes ∧
    (env.authorizeBearer (r.header "Authorization") scopes).ok = true

section eventHandlers

variable {E : PyError → World → Prop} {U : World → Prop} {env : Environment} {r : Request}

theorem triple_handleEventsPOST_reads {R : Bool → World → Prop} (h : ReadsEventsBody env r)
    (hwait : r.stalls = true → ∀ w, Stage [] [] [] w → U w)
    (hproduce : r.stalls = false → ∀ sub, Triple (Stage [] [] [Events.readBody env r])
      (Events.produce env (Events.readBody env r) sub) R E U)
    (hack : r.stalls = false → Triple (Stage [] [] [Events.readBody env r])
      (Events.ack env (Events.readBody env r)) R E U) :
    Triple (Stage [] [] []) (Events.handleEventsPOST env r) R E U := by
  obtain ⟨-, hpath, hroute⟩ := h
  unfold Events.handleEventsPOST
  rw [if_neg (not_not_intro hpath)]
  rcases hroute with ⟨hp, hok⟩ | ⟨hp, hok⟩
  · simp only [hp, if_true]
    apply triple_authorized
    rw [if_neg (by simp [hok])]
    refine (triple_awaitBody hwait).bind fun _ => Triple.assume fun hread => ?_
    exact triple_parsed.bind fun _ => hproduce hread _
  · simp only [hp]
    apply triple_authorized
    rw [if_neg (by simp [hok])]
    refine (triple_awaitBody hwait).bind fun _ => Triple.assume fun hread => ?_
    exact triple_parsed.bind fun _ => hack hread

variable (henv : env.Versioned)

include henv

theorem triple_handleEventsPOST_other (hmethod : r.method = .post) (hpath : Events.IsEventsPath r.path)
    (h : ¬ReadsEventsBody env r) :
    Triple (Stage [] [] []) (Events.handleEventsPOST env r) (fun b w => b = true ∧ Answered [] w)
      E U := by
  unfold Events.handleEventsPOST
  rw [if_neg (not_not_intro hpath)]
  by_cases hp : Events.normPath r.path = "/events/produce"
  · simp only [hp, if_true]
    apply triple_authorized
    rw [if_pos]
    · exact Events.triple_answer henv (dumps_failure _)
    · exact fun hok => h ⟨hmethod, hpath, .inl ⟨hp, hok⟩⟩
  · by_cases ha : Events.normPath r.path = "/events/ack"
    · simp only [ha]
      apply triple_authorized
      rw [if_pos]
      · exact Events.triple_answer henv (dumps_failure _)
      · exact fun hok => h ⟨hmethod, hpath, .inr ⟨ha, hok⟩⟩
    · simp only [if_neg hp, if_neg ha]
      exact Events.triple_answer henv (dumps_failure _)

theorem triple_handleEventsGET (fuel : ℕ) (hmethod : r.method = .get)
    (hpath : Events.IsEventsPath r.path) :
    Triple (Stage [] [] []) (Events.handleEventsGET env r fuel) (fun b w => b = true ∧ Answered [] w)
      E (fun w => IsStream r ∧ Answered [] w) := by
  unfold Events.handleEventsGET
  rw [if_neg (not_not_intro hpath)]
  refine Triple.ite (fun _ => ?_) fun hroute => ?_
  · exact (triple_sendError henv _).bind fun _ => triple_pure fun _ h => ⟨rfl, h⟩
  apply triple_authorized
  refine Triple.ite (fun _ => Events.triple_answer henv (dumps_failure _)) fun _ => ?_
  refine Triple.ite (fun _ => Events.triple_answer henv (dumps_failure _)) fun _ => ?_
  refine (triple_emit rfl rfl).bind fun _ => ?_
  split
  · exact Events.triple_answer henv (dumps_failureDetail _ _)
  · next subc hsub =>
    refine Triple.ite (fun _ => triple_poll henv hsub _) fun hpoll => ?_
    have hstream : IsStream r := ⟨hmethod, by simpa [hpoll] using hroute⟩
    exact triple_consume henv fuel subc _ fun _ h => ⟨hstream, h⟩

end eventHandlers

section systemHandlers

variable {E : PyError → World → Prop} {U : World → Prop} {env : Environment} {r : Request}
  {server : Server} {R : Bool → World → Prop}

theorem triple_emit_server {hs : List (List HeadLine)} {buffer : List HeadLine} {bs : List Value}
    (a : Action) :
    Triple (fun w => w.server = server ∧ Stage hs buffer bs w) (emit a)
      (fun _ w => w.server = server ∧ Stage (hs ++ a.head?.toList) buffer (bs ++ a.body?.toList) w)
      E U :=
  triple_modify fun _ h => ⟨h.1, h.2.append a⟩

theorem triple_system_reads (h : ReadsSystemBody env r)
    (hwait : r.stalls = true → ∀ w, w.server = server ∧ Stage [] [] [] w → U w)
    (hnone : r.stalls = false → server.kernel = none → Triple (Stage [] [] [APIHandler.body env r])
      (APIHandler.answer env (Events.failure "kernel unavailable") .serviceUnavailable) R E U)
    (hsome : r.stalls = false → ∀ kernel sub, server.kernel = some kernel → Triple (Stage [] [] [APIHandler.body env r])
      (APIHandler.systemOp env r sub (APIHandler.body env r) kernel) R E U) :
    Triple (fun w => w.server = server ∧ Stage [] [] [] w) (APIHandler.system env r) R E U := by
  obtain ⟨-, scopes, hscopes, hok⟩ := h
  let verdict := env.authorizeBearer (r.header "Authorization") scopes
  unfold APIHandler.system
  rw [hscopes]
  change Triple _ (emit (.authorize scopes verdict) >>= fun _ => if ¬verdict.ok = true then _ else _) R E U
  refine (triple_emit_server _).bind fun _ => ?_
  rw [if_neg (by simp [verdict, hok])]
  refine (triple_awaitBody hwait).bind fun _ => Triple.assume fun hread => ?_
  refine (triple_emit_server _).bind fun _ => triple_read_bind ?_
  rintro w ⟨hserver, hst⟩ v hv
  obtain rfl : v = w := hv
  rw [hserver]
  cases hk : server.kernel with
  | none => exact hnone hread hk v hst
  | some kernel => exact hsome hread kernel _ hk v hst

variable (henv : env.Versioned)

include henv

theorem triple_kernelReply {bs : List Value} {p : Handler Value}
    (hp : Triple (Stage [] [] bs) p (fun res w => IsResult env res ∧ Stage [] [] bs w) E U) :
    Triple (Stage [] [] bs) (p >>= APIHandler.kernelReply env) (fun b w => b = true ∧ Answered bs w)
      E U := by
  refine hp.bind fun res w hw => ?_
  obtain ⟨⟨hdumps, v, hv⟩, hst⟩ := hw
  unfold APIHandler.kernelReply
  rw [hv, ofExcept_ok_bind]
  exact APIHandler.triple_answer henv hdumps w hst

theorem triple_systemOp {bs : List Value} {sub : String} {body : Value} {kernel : TrinityKernel}
    (hscope : APIHandler.scopesForPath r.path ≠ none)
    (hbody : r.path = "/system/reload" → ∃ configPath, body.get "config_path" = .ok configPath ∧
      ¬TrinityKernel.Closes env (kernel.cfgFile configPath)) :
    Triple (Stage [] [] bs) (APIHandler.systemOp env r sub body kernel)
      (fun b w => b = true ∧ Answered bs w) E U := by
  refine Triple.ite (fun hp => ?_) fun hr => Triple.ite (fun _ => ?_) fun hd =>
    Triple.ite (fun _ => ?_) fun hu => ?_
  · obtain ⟨configPath, hget, hclose⟩ := hbody hp
    rw [hget, ofExcept_ok_bind]
    exact triple_kernelReply henv (triple_handleReload sub hclose)
  · exact triple_kernelReply henv (triple_handleDrain sub true)
  · exact triple_kernelReply henv (triple_handleDrain sub false)
  · exact absurd (by simp [APIHandler.scopesForPath, hr, hd, hu]) hscope

theorem triple_system_other (hmethod : r.method = .post) (h : ¬ReadsSystemBody env r) :
    Triple (Stage [] [] []) (APIHandler.system env r)
      (fun b w => if b then Answered [] w else Stage [] [] [] w) E U := by
  unfold APIHandler.system
  cases hscopes : APIHandler.scopesForPath r.path with
  | none => exact triple_pure fun _ h => h
  | some scopes =>
    apply triple_authorized
    rw [if_pos]
    · exact (APIHandler.triple_answer henv (dumps_failure _)).weaken fun b _ hw => by
        rw [if_pos hw.1]
        exact hw.2
    · exact fun hok => h ⟨hmethod, scopes, hscopes, hok⟩

end systemHandlers

def Parsed (env : Environment) (r : Request) (bodies : List Value) : Prop :=
  ReadsEventsBody env r ∧ bodies = [Events.readBody env r] ∨
    ReadsSystemBody env r ∧ bodies = [APIHandler.body env r] ∨
    ¬ReadsEventsBody env r ∧ ¬ReadsSystemBody env r ∧ bodies = []

def UsesSystemBody (env : Environment) (server : Server) (r : Request) : Prop :=
  ReadsSystemBody env r ∧ r.path = "/system/reload" ∧ server.kernel.isSome = true

def ReloadCloses (env : Environment) (server : Server) (r : Request) : Prop :=
  ∃ kernel configPath, server.kernel = some kernel ∧ (APIHandler.body env r).get "config_path" = .ok configPath ∧
    TrinityKernel.Closes env (kernel.cfgFile configPath)

section serve

variable {E : PyError → World → Prop} {U : World → Prop} {env : Environment} {r : Request}
  {server : Server}

theorem not_readsSystemBody (env : Environment) (h : Events.IsEventsPath r.path) :
    ¬ReadsSystemBody env r := by
  rintro ⟨-, scopes, hscopes, -⟩
  rw [APIHandler.scopesForPath_of_isEventsPath h] at hscopes
  cases hscopes

theorem doPOST_events (hm : ¬APIHandler.IsMusclePath r.path) (hpath : Events.IsEventsPath r.path) :
    APIHandler.doPOST env r = (do
      let handled ← Events.handleEventsPOST env r
      if handled then return ()
      else
        let answered ← APIHandler.system env r
        if answered then return ()
        else APIHandler.json env (Events.failure "unknown endpoint") .notFound) := by
  unfold APIHandler.doPOST
  rw [if_neg hm, if_pos hpath]
  rfl

theorem doPOST_system (hm : ¬APIHandler.IsMusclePath r.path) (hpath : ¬Events.IsEventsPath r.path) :
    APIHandler.doPOST env r = (do
      let answered ← APIHandler.system env r
      if answered then return ()
      else APIHandler.json env (Events.failure "unknown endpoint") .notFound) := by
  unfold APIHandler.doPOST
  rw [if_neg hm, if_neg hpath]
  rfl

variable (henv : env.Versioned) (hm : ¬APIHandler.IsMusclePath r.path)

include henv

theorem triple_doGET (fuel : ℕ) (hmethod : r.method = .get) :
    Triple (Stage [] [] []) (APIHandler.doGET env fuel r) (fun _ => Answered [])
      E (fun w => IsStream r ∧ Answered [] w) := by
  unfold APIHandler.doGET
  refine Triple.ite (fun _ => ?_) fun _ => Triple.ite (fun _ => ?_) fun _ => ?_
  · refine triple_read_bind fun w hst v hv => ?_
    obtain rfl : v = w := hv
    exact APIHandler.triple_plain henv _ v hst
  · refine triple_read_bind fun w hst v hv => ?_
    obtain rfl : v = w := hv
    exact APIHandler.triple_plain henv _ v hst
  · by_cases hpath : Events.IsEventsPath r.path
    · refine (triple_handleEventsGET henv fuel hmethod hpath).bind fun handled w hw => ?_
      obtain ⟨rfl, hw⟩ := hw
      exact hw
    · unfold Events.handleEventsGET
      rw [if_pos hpath]
      exact triple_sendError henv _

include hm

theorem triple_doPOST (hmethod : r.method = .post)
    (harrives : ReadsEventsBody env r ∨ ReadsSystemBody env r → r.stalls = false)
    (hremains : UsesSystemBody env server r → ¬ReloadCloses env server r)
    (hevents : ReadsEventsBody env r → (Events.readBody env r).isDict = true)
    (hsystem : UsesSystemBody env server r → (APIHandler.body env r).isDict = true) :
    Triple (fun w => w.server = server ∧ Stage [] [] [] w) (APIHandler.doPOST env r)
      (fun _ w => ∃ bodies, Parsed env r bodies ∧ Answered bodies w) E U := by
  have harrived {I : World → Prop} (h : ReadsEventsBody env r ∨ ReadsSystemBody env r) :
      r.stalls = true → ∀ w, I w → U w := by
    intro hstalls
    rw [harrives h] at hstalls
    cases hstalls
  by_cases hpath : Events.IsEventsPath r.path
  · have hns := not_readsSystemBody env hpath
    rw [doPOST_events hm hpath]
    refine Triple.bind (R := fun b w => b = true ∧ ∃ bodies, Parsed env r bodies ∧ Answered bodies w)
      ?_ ?_
    · refine Triple.strengthen (I := Stage [] [] []) ?_ fun _ h => h.2
      by_cases hr : ReadsEventsBody env r
      · have hd := hevents hr
        refine (triple_handleEventsPOST_reads hr (harrived (.inl hr)) (fun _ => triple_produce henv hd) fun _ =>
          triple_ack henv hd).weaken ?_
        exact fun b w h => ⟨h.1, _, .inl ⟨hr, rfl⟩, h.2⟩
      · refine (triple_handleEventsPOST_other henv hmethod hpath hr).weaken ?_
        exact fun b w h => ⟨h.1, _, .inr (.inr ⟨hr, hns, rfl⟩), h.2⟩
    · rintro handled w ⟨rfl, hw⟩
      exact hw
  · have hne : ¬ReadsEventsBody env r := fun h => hpath h.2.1
    rw [doPOST_system hm hpath]
    by_cases hr : ReadsSystemBody env r
    · refine Triple.bind (R := fun b w => b = true ∧ Answered [APIHandler.body env r] w) ?_ ?_
      · apply triple_system_reads hr (harrived (.inr hr))
        · exact fun _ _ => APIHandler.triple_answer henv (dumps_failure _)
        · intro _ kernel sub hk
          apply triple_systemOp henv
          · obtain ⟨-, scopes, hscopes, -⟩ := hr
            simp [hscopes]
          · intro hp
            have huses : UsesSystemBody env server r := ⟨hr, hp, by simp [hk]⟩
            obtain ⟨configPath, hget⟩ := exists_get (hsystem huses) "config_path" .none
            exact ⟨configPath, hget, fun hclose => hremains huses ⟨kernel, configPath, hk, hget, hclose⟩⟩
      · rintro answered w ⟨rfl, hw⟩
        exact ⟨_, .inr (.inl ⟨hr, rfl⟩), hw⟩
    · refine Triple.bind (R := fun b w => if b then Answered [] w else Stage [] [] [] w) ?_ ?_
      · exact (triple_system_other henv hmethod hr).strengthen fun _ h => h.2
      · have hparsed : Parsed env r [] := .inr (.inr ⟨hne, hr, rfl⟩)
        intro answered
        cases answered with
        | true => exact triple_pure fun w hw => ⟨_, hparsed, hw⟩
        | false =>
          refine (APIHandler.triple_json henv (dumps_failure _)).weaken ?_
          exact fun _ w hw => ⟨_, hparsed, hw⟩

end serve

/-- One head has been sent and nothing has escaped: the handler has returned, or it still is in
the stream that it answers with. -/
def OneResponse (r : Request) (run : Outcome PyError Unit × World) : Prop :=
  (∃ lines, IsHead lines ∧ run.2.heads = [lines]) ∧
    (run.1 = .returned () ∨ run.1 = .running ∧ IsStream r)

section exact

variable {env : Environment} {r : Request} {server : Server}

variable (henv : env.Versioned) (hm : ¬APIHandler.IsMusclePath r.path)
    (harrives : ReadsEventsBody env r ∨ ReadsSystemBody env r → r.stalls = false)
    (hremains : UsesSystemBody env server r → ¬ReloadCloses env server r)
    (hevents : ReadsEventsBody env r → (Events.readBody env r).isDict = true)
    (hsystem : UsesSystemBody env server r → (APIHandler.body env r).isDict = true)

include henv hm harrives hremains hevents hsystem

theorem triple_serve (fuel : ℕ) :
    Triple (fun w => w.server = server ∧ Stage [] [] [] w) (APIHandler.serve env fuel r)
      (fun _ w => ∃ bodies, Parsed env r bodies ∧ Answered bodies w) (fun _ _ => False)
      (fun w => IsStream r ∧ ∃ bodies, Parsed env r bodies ∧ Answered bodies w) := by
  unfold APIHandler.serve
  cases hmethod : r.method with
  | get =>
    have hparsed : Parsed env r [] := by
      refine .inr (.inr ⟨?_, ?_, rfl⟩)
      · intro h
        cases hmethod.symm.trans h.1
      · intro h
        cases hmethod.symm.trans h.1
    exact (triple_doGET henv fuel hmethod).mono (fun _ h => h.2) (fun _ _ h => ⟨_, hparsed, h⟩)
      (fun _ _ h => h) fun _ h => ⟨h.1, _, hparsed, h.2⟩
  | post => exact triple_doPOST henv hm hmethod harrives hremains hevents hsystem

theorem oneResponse_serve (fuel : ℕ) (files : Str → Option (List UInt8)) :
    OneResponse r (APIHandler.serve env fuel r (World.start server files)) ∧
      Parsed env r (APIHandler.serve env fuel r (World.start server files)).2.bodies := by
  have h := triple_serve henv hm harrives hremains hevents hsystem fuel (World.start server files)
    ⟨rfl, rfl, rfl, rfl, rfl, rfl⟩
  rcases hrun : APIHandler.serve env fuel r (World.start server files) with ⟨_ | _ | _, w⟩
  · rw [hrun] at h
    obtain ⟨bodies, hparsed, lines, hl, hst⟩ := h
    exact ⟨⟨⟨lines, hl, hst.heads⟩, .inl rfl⟩, by rw [hst.bodies]; exact hparsed⟩
  · rw [hrun] at h
    exact h.elim
  · rw [hrun] at h
    obtain ⟨hstream, bodies, hparsed, lines, hl, hst⟩ := h
    exact ⟨⟨⟨lines, hl, hst.heads⟩, .inr ⟨rfl, hstream⟩⟩, by rw [hst.bodies]; exact hparsed⟩

end exact

end TrinityOS.Service
