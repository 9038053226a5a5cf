import TrinityOS.Service.Responses
import TrinityOS.Service.Session

namespace TrinityOS.Service

open Program

def Action.isSent : Action → Bool
  | .head _ | .write _ => true
  | _ => false

def World.sent (w : World) : List Action := w.trace.filter Action.isSent

def jsonReply (env : Environment) (code : HTTPStatus) (text : List Char) : List Action :=
  env.headed [.status code.code, .field "Content-Type" "application/json",
    .field "Content-Length" (toString text.length)] ++ [.write text]

def pageReply (env : Environment) (page : List Char) : List Action :=
  env.headed [.status HTTPStatus.notFound.code, .field "Connection" "close",
    .field "Content-Type" "text/html;charset=utf-8", .field "Content-Length" (toString page.length)] ++ [.write page]

def streamReply (env : Environment) (blobs : List (List Char)) : List Action :=
  env.headed [.status HTTPStatus.ok.code, .field "Content-Type" "text/event-stream", .field "Cache-Control" "no-cache",
    .field "Connection" "keep-alive"] ++
    blobs.flatMap fun blob => [.write "event: message\n".toList, .write ("data: ".toList ++ blob ++ "\n\n".toList)]

def probes : List (String × HTTPStatus × String) :=
  [("/healthz", .ok, "ok\n"), ("/healthz", .serviceUnavailable, "unhealthy\n"),
    ("/readyz", .ok, "ready\n"), ("/readyz", .serviceUnavailable, "not-ready\n")]

/-- The replies to a request. A JSON reply says in `success` what it says by its status; only the
broker's answer to an acknowledgement is passed on with status 200 in any case. -/
inductive Reply (env : Environment) (r : Request) : List Action → Prop
  | json {obj : Value} {text : List Char} {code : HTTPStatus} {success : Bool}
      (htext : dumps env.floatRepr obj = .ok text) (hsuccess : obj.get "success" = .ok (.bool success))
      (hcode : (success = true ↔ code = .ok) ∨ code = .ok ∧ r.method = .post ∧ Events.normPath r.path = "/events/ack") :
      Reply env r (jsonReply env code text)
  | text {code : HTTPStatus} {text : String} (hmethod : r.method = .get) (hprobe : (r.path, code, text) ∈ probes) :
      Reply env r (plainReply env code text)
  | page (hmethod : r.method = .get) : Reply env r (pageReply env (env.errorPage HTTPStatus.notFound.code "Not found"))
  | stream {blobs : List (List Char)} (hmethod : r.method = .get) (hpath : Events.normPath r.path = "/events/consume")
      (hblobs : ∀ blob ∈ blobs, ∃ msg, dumps env.floatRepr (Events.messageFields msg) = .ok blob) :
      Reply env r (streamReply env blobs)

/-- A write to the client has raised. Only a reload closes the connection, before anything is written. -/
def Disconnected (env : Environment) (w : World) : Prop :=
  w.connectionClosed = true ∧ 0 < w.sends ∨ ∃ n < w.sends, env.sendFault n ≠ none

def Replied (env : Environment) (r : Request) (w : World) : Prop :=
  ∃ l, Reply env r l ∧ w.sent <+: l ∧ (w.sent = [] ∨ w.sent = l ∨ Disconnected env w)

structure Sending (env : Environment) (l : List Action) (lines : List HeadLine) (w : World) : Prop where
  sent : w.sent = l
  buffer : w.headersBuffer = if env.http09 then [] else lines

abbrev Handles (env : Environment) (r : Request) (p : Handler Bool) : Prop :=
  Triple (Sending env [] []) p (fun handled w => if handled = true then Replied env r w else Sending env [] [] w)
    (fun _ => Replied env r) (Replied env r)

theorem get_success (success : Bool) (items : List (String × Value)) :
    (record (("success", .bool success) :: items)).get "success" = .ok (.bool success) := by
  simp [record, Value.get, Value.lookup, str]

section sending

variable {env : Environment} {r : Request} {l : List Action} {lines : List HeadLine} {w : World}
  {E : PyError → World → Prop} {U : World → Prop}

theorem sent_append (w : World) (a : Action) :
    World.sent { w with trace := w.trace ++ [a] } = w.sent ++ if a.isSent then [a] else [] := by
  simp only [World.sent, List.filter_append, List.filter_cons, List.filter_nil]

theorem replied_of_nil (h : w.sent = []) : Replied env r w := by
  obtain ⟨text, htext⟩ := @dumps_failure env.floatRepr ""
  have hreply : Reply env r (jsonReply env .notFound text) := .json htext (get_success _ _) (.inl (by decide))
  exact ⟨_, hreply, h ▸ List.nil_prefix, .inl h⟩

theorem Sending.replied (h : Sending env [] lines w) : Replied env r w := replied_of_nil h.sent

theorem sent_eq_of_not_isSent (w : World) {a : Action} (ha : a.isSent = false) :
    World.sent { w with trace := w.trace ++ [a] } = w.sent := by
  rw [sent_append, ha]
  exact List.append_nil _

theorem Sending.append (h : Sending env l lines w) {a : Action} (ha : a.isSent = false) :
    Sending env l lines { w with trace := w.trace ++ [a] } :=
  ⟨(sent_eq_of_not_isSent w ha).trans h.sent, h.buffer⟩

theorem Replied.append (h : Replied env r w) {a : Action} (ha : a.isSent = false) :
    Replied env r { w with trace := w.trace ++ [a] } := by
  unfold Replied
  rw [sent_eq_of_not_isSent w ha]
  exact h

theorem Sending.emit {a : Action} (ha : a.isSent = false) :
    Triple (Sending env l lines) (emit a) (fun _ => Sending env l lines) E U :=
  triple_modify fun _ h => h.append ha

theorem Sending.transmit {a : Action} (ha : a.isSent = true) :
    Triple (Sending env l lines) (transmit env a) (fun _ => Sending env (l ++ [a]) lines)
      (fun _ w => Sending env l lines w ∧ Disconnected env w) U := by
  refine triple_transmit (fun w hw _ => ⟨?_, hw.buffer⟩) fun w e hw hfault => ⟨⟨hw.sent, hw.buffer⟩, ?_⟩
  · rw [← hw.sent]
    exact (sent_append _ a).trans (by rw [ha]; rfl)
  · unfold Environment.writeFault at hfault
    split at hfault
    · next hclosed => exact .inl ⟨hclosed, Nat.succ_pos _⟩
    · exact .inr ⟨w.sends, Nat.lt_succ_self _, by simp [hfault]⟩

theorem Sending.bufferLine (line : HeadLine) :
    Triple (Sending env l lines) (bufferLine env line) (fun _ => Sending env l (lines ++ [line])) E U := by
  unfold TrinityOS.Service.bufferLine
  split
  · next hversion => exact triple_pure fun _ h => ⟨h.sent, by rw [h.buffer, if_pos hversion, if_pos hversion]⟩
  · next hversion => exact triple_modify fun _ h => ⟨h.sent, by rw [h.buffer, if_neg hversion, if_neg hversion]⟩

theorem Sending.sendResponse (code : HTTPStatus) :
    Triple (Sending env [] lines) (sendResponse env code) (fun _ => Sending env [] (lines ++ [.status code.code]))
      (fun _ => Replied env r) U :=
  (triple_logRequest (fun _ hw _ => hw) fun _ _ hw _ => hw.replied).bind fun _ => Sending.bufferLine _

theorem Sending.sendHeader (name value : String) :
    Triple (Sending env l lines) (sendHeader env name value) (fun _ => Sending env l (lines ++ [.field name value])) E U :=
  Sending.bufferLine _

theorem Sending.endHeaders :
    Triple (Sending env [] lines) (endHeaders env) (fun _ => Sending env (env.headed lines) [])
      (fun _ => Replied env r) U := by
  unfold TrinityOS.Service.endHeaders Environment.headed
  split
  · next hversion => exact triple_pure fun _ h => ⟨h.sent, by rw [h.buffer, if_pos hversion, if_pos hversion]⟩
  next hversion =>
  refine triple_read_bind fun w hw => ?_
  rw [hw.buffer, if_neg hversion]
  refine Triple.bind (R := fun _ => Sending env [.head lines] lines) ?_ fun _ => ?_
  · apply ((Sending.transmit rfl).at_state hw).mono
    · exact fun _ h => h
    · exact fun _ _ h => h
    · exact fun _ _ h => h.1.replied
    · exact fun _ h => h
  · exact triple_modify fun v hv => ⟨hv.sent, by rw [if_neg hversion]⟩

theorem Sending.writeBody {data : List Char} (hl : Reply env r (l ++ [.write data])) :
    Triple (Sending env l lines) (writeBody env data) (fun _ => Replied env r) (fun _ => Replied env r) U := by
  apply (Sending.transmit (a := .write data) rfl).mono
  · exact fun _ h => h
  · exact fun _ w h => ⟨_, hl, by rw [h.sent], .inr (.inl h.sent)⟩
  · exact fun _ w h => ⟨_, hl, by rw [h.1.sent]; exact List.prefix_append _ _, .inr (.inr h.2)⟩
  · exact fun _ h => h

theorem Sending.reply {code : HTTPStatus} {obj : Value} {p : List Char → Handler Unit}
    (hp : ∀ text, dumps env.floatRepr obj = .ok text → Triple (Sending env (env.headed [.status code.code,
      .field "Content-Type" "application/json", .field "Content-Length" (toString text.length)]) []) (p text)
        (fun _ => Replied env r) (fun _ => Replied env r) U) :
    Triple (Sending env [] []) (do
      let data ← ofExcept (dumps env.floatRepr obj)
      TrinityOS.Service.sendResponse env code
      TrinityOS.Service.sendHeader env "Content-Type" "application/json"
      TrinityOS.Service.sendHeader env "Content-Length" (toString data.length)
      TrinityOS.Service.endHeaders env
      p data) (fun _ => Replied env r) (fun _ => Replied env r) U := by
  cases htext : dumps env.floatRepr obj with
  | error e => exact triple_raise fun _ h => h.replied
  | ok text =>
    rw [ofExcept_ok_bind]
    refine (Sending.sendResponse code).bind fun _ => (Sending.sendHeader _ _).bind fun _ => ?_
    exact (Sending.sendHeader _ _).bind fun _ => Sending.endHeaders.bind fun _ => hp text htext

end sending

section replies

variable {env : Environment} {r : Request} {U : World → Prop} {code : HTTPStatus}

theorem triple_page (hmethod : r.method = .get) :
    Triple (Sending env [] []) (sendError env .notFound "Not found") (fun _ => Replied env r) (fun _ => Replied env r) U := by
  refine (Sending.sendResponse _).bind fun _ => (Sending.sendHeader _ _).bind fun _ => ?_
  refine (Sending.sendHeader _ _).bind fun _ => (Sending.sendHeader _ _).bind fun _ => ?_
  exact Sending.endHeaders.bind fun _ => Sending.writeBody (.page hmethod)

theorem triple_probe {text : String} (hmethod : r.method = .get) (hprobe : (r.path, code, text) ∈ probes) :
    Triple (Sending env [] []) (APIHandler.plain env code text) (fun _ => Replied env r) (fun _ => Replied env r) U := by
  refine (Sending.sendResponse _).bind fun _ => (Sending.sendHeader _ _).bind fun _ => ?_
  exact Sending.endHeaders.bind fun _ => Sending.writeBody (.text hmethod hprobe)

variable {obj : Value} {success : Bool} (hsuccess : obj.get "success" = .ok (.bool success))
  (hcode : (success = true ↔ code = .ok) ∨ code = .ok ∧ r.method = .post ∧ Events.normPath r.path = "/events/ack")

include hsuccess hcode

theorem Events.handles_answer : Handles env r (Events.answer env obj code) := by
  unfold Events.answer Events.json
  apply Triple.bind (R := fun _ => Replied env r)
  · apply Triple.bind (R := fun _ => Replied env r)
    · apply Triple.attempt
      exact Sending.reply fun text htext => Sending.writeBody (.json htext hsuccess hcode)
    · intro sent
      split <;> exact keeps_pure ()
  · exact fun _ => triple_pure fun _ h => h

theorem APIHandler.triple_jsonReply : Triple (Sending env [] []) (APIHandler.json env obj code) (fun _ => Replied env r)
    (fun _ => Replied env r) U := by
  apply Sending.reply
  intro text htext
  apply Triple.bind (R := fun _ => Replied env r)
  · apply Triple.attempt
    exact Sending.writeBody (.json htext hsuccess hcode)
  · intro sent
    split
    · exact triple_pure fun _ h => h
    · exact triple_pure fun _ h => h
    · exact triple_raise fun _ h => h

theorem APIHandler.handles_answer : Handles env r (APIHandler.answer env obj code) :=
  (APIHandler.triple_jsonReply hsuccess hcode).bind fun _ => triple_pure fun _ h => h

end replies

section handlers

variable {env : Environment} {r : Request}

theorem handles_pass : Handles env r (pure false) := triple_pure fun _ h => h

theorem Handles.ofExcept {α : Type} {e : Except PyError α} {k : α → Handler Bool} (h : ∀ a, Handles env r (k a)) :
    Handles env r (Program.ofExcept e >>= k) := by
  cases e with
  | error e => exact triple_raise fun _ hw => hw.replied
  | ok a => exact h a

theorem Handles.emit {a : Action} {k : Handler Bool} (ha : a.isSent = false) (h : Handles env r k) :
    Handles env r (TrinityOS.Service.emit a >>= fun _ => k) :=
  (Sending.emit ha).bind fun _ => h

theorem Handles.awaitBody {k : Handler Bool} (h : Handles env r k) :
    Handles env r (TrinityOS.Service.awaitBody r >>= fun _ => k) := by
  apply Triple.bind (R := fun _ => Sending env [] [])
  · exact Triple.ite (fun _ => triple_wait fun _ hw => hw.replied) fun _ => triple_pure fun _ hw => hw
  · exact fun _ => h

theorem handles_failure {error : String} {code : HTTPStatus} (hcode : code ≠ .ok) :
    Handles env r (Events.answer env (Events.failure error) code) :=
  Events.handles_answer (get_success _ _) (.inl (iff_of_false Bool.false_ne_true hcode))

theorem handles_failureDetail {error : String} {e : PyError} {code : HTTPStatus} (hcode : code ≠ .ok) :
    Handles env r (Events.answer env (Events.failureDetail error e) code) :=
  Events.handles_answer (get_success _ _) (.inl (iff_of_false Bool.false_ne_true hcode))

theorem handles_produce (body : Value) (sub : String) : Handles env r (Events.produce env body sub) := by
  refine Handles.ofExcept fun topic => Handles.ofExcept fun payload => ?_
  refine Handles.ofExcept fun key => Handles.ofExcept fun idk => ?_
  refine Triple.ite (fun _ => Handles.emit rfl ?_) fun _ => handles_failure (by decide)
  split
  · exact Events.handles_answer (get_success _ _) (.inl (by decide))
  · exact handles_failureDetail (by decide)

theorem handles_ack (hmethod : r.method = .post) (hpath : Events.normPath r.path = "/events/ack") (body : Value) :
    Handles env r (Events.ack env body) := by
  refine Handles.ofExcept fun topic => Handles.ofExcept fun group => Handles.ofExcept fun mid => ?_
  refine Triple.ite (fun _ => Handles.emit rfl ?_) fun _ => handles_failure (by decide)
  split
  · exact Events.handles_answer (get_success _ _) (.inr ⟨rfl, hmethod, hpath⟩)
  · exact handles_failure (by decide)

theorem handles_poll (subc : Subscription) (timeout : Float) : Handles env r (Events.poll env subc timeout) := by
  unfold Events.poll Events.close
  refine Handles.emit rfl ?_
  apply Triple.bind (R := fun _ => Sending env [] [])
  · split
    · exact Sending.emit rfl
    · exact triple_pure fun _ h => h
  · intro _
    split <;> exact Events.handles_answer (get_success _ _) (.inl (by decide))

theorem handles_authorized {authorization : Option String} {scopes : List String} {k : Verdict → Handler Bool}
    (h : ∀ verdict, Handles env r (k verdict)) : Handles env r (authorizeBearer env authorization scopes >>= k) := by
  change Handles env r (emit _ >>= fun _ => k _)
  exact Handles.emit rfl (h _)

theorem handles_handleEventsPOST (hmethod : r.method = .post) : Handles env r (Events.handleEventsPOST env r) := by
  unfold Events.handleEventsPOST
  refine Triple.ite (fun _ => handles_pass) fun _ => ?_
  dsimp only
  split
  · exact handles_failure (by decide)
  refine handles_authorized fun verdict => Triple.ite (fun _ => handles_failure (by decide)) fun _ => ?_
  refine Handles.awaitBody (Handles.emit rfl (Triple.ite (fun _ => handles_produce _ _) fun _ => ?_))
  exact Triple.ite (fun hpath => handles_ack hmethod hpath _) fun _ => handles_failure (by decide)

section stream

variable (hmethod : r.method = .get) (hpath : Events.normPath r.path = "/events/consume")

def Streaming (env : Environment) (w : World) : Prop :=
  ∃ blobs, (∀ blob ∈ blobs, ∃ msg, dumps env.floatRepr (Events.messageFields msg) = .ok blob) ∧
    Sending env (streamReply env blobs) [] w

theorem streamReply_concat (blobs : List (List Char)) (blob : List Char) :
    streamReply env (blobs ++ [blob]) = streamReply env blobs ++ [.write "event: message\n".toList] ++
      [.write ("data: ".toList ++ blob ++ "\n\n".toList)] := by
  simp [streamReply]

include hmethod hpath

theorem Streaming.replied {w : World} (h : Streaming env w) : Replied env r w := by
  obtain ⟨blobs, hblobs, hw⟩ := h
  exact ⟨_, .stream hmethod hpath hblobs, by rw [hw.sent], .inr (.inl hw.sent)⟩

theorem triple_writeMessage (msg : Message) {U : World → Prop} :
    Triple (Streaming env) (Events.writeMessage env msg) (fun _ => Streaming env) (fun _ => Replied env r) U := by
  refine triple_exists fun blobs => ?_
  rintro w ⟨hblobs, hw⟩
  revert hw
  suffices h : Triple (Sending env (streamReply env blobs) []) (Events.writeMessage env msg) (fun _ => Streaming env)
      (fun _ => Replied env r) U from fun hw => h w hw
  unfold Events.writeMessage
  cases hblob : dumps env.floatRepr (Events.messageFields msg) with
  | error e => exact triple_raise fun v hv => Streaming.replied hmethod hpath ⟨blobs, hblobs, hv⟩
  | ok blob =>
    have hall : ∀ b ∈ blobs ++ [blob], ∃ msg, dumps env.floatRepr (Events.messageFields msg) = .ok b :=
      List.forall_mem_append.mpr ⟨hblobs, List.forall_mem_singleton.mpr ⟨msg, hblob⟩⟩
    have hreply : Reply env r (streamReply env (blobs ++ [blob])) := .stream hmethod hpath hall
    rw [ofExcept_ok_bind]
    apply Triple.bind (R := fun _ => Sending env (streamReply env blobs ++ [.write "event: message\n".toList]) [])
    · apply (Sending.transmit rfl).mono
      · exact fun _ h => h
      · exact fun _ _ h => h
      · exact fun _ v hv => Streaming.replied hmethod hpath ⟨blobs, hblobs, hv.1⟩
      · exact fun _ h => h
    · intro _
      apply (Sending.transmit rfl).mono
      · exact fun _ h => h
      · refine fun _ v hv => ⟨_, hall, ?_⟩
        rw [streamReply_concat]
        exact hv
      · refine fun _ v hv => ⟨_, hreply, ?_, .inr (.inr hv.2)⟩
        rw [hv.1.sent, streamReply_concat]
        exact List.prefix_append _ _
      · exact fun _ h => h

theorem triple_round (subc : Subscription) (timeout : Float) (i : ℕ) {E : PyError → World → Prop} :
    Triple (Streaming env) (Events.streamRound env subc timeout i)
      (fun again w => if again = true then Streaming env w else Replied env r w) E (Replied env r) := by
  have hstops {I : World → Prop} (h : ∀ w, I w → Replied env r w) : Triple I (pure false : Handler Bool)
      (fun again w => if again = true then Streaming env w else Replied env r w) E (Replied env r) :=
    triple_pure fun w hw => h w hw
  have hreplied (w : World) (h : Streaming env w) : Replied env r w := h.replied hmethod hpath
  refine Triple.ite (fun _ => ?_) fun _ => hstops hreplied
  apply Triple.bind (R := fun _ => Streaming env)
  · refine triple_modify fun w hw => ?_
    obtain ⟨blobs, hblobs, hw⟩ := hw
    exact ⟨blobs, hblobs, hw.append rfl⟩
  intro _
  split
  · exact hstops hreplied
  · exact triple_pure fun w hw => hw
  · next msg _ =>
    apply Triple.bind (R := fun written w => if written.isOk = true then Streaming env w else Replied env r w)
    · exact Triple.attempt (triple_writeMessage hmethod hpath msg)
    · intro written
      cases written with
      | ok => exact triple_pure fun w hw => hw
      | error => exact hstops fun w hw => hw

theorem handles_consume (fuel : ℕ) (subc : Subscription) (timeout : Float) :
    Handles env r (Events.consume env fuel subc timeout) := by
  have hemit {a : Action} (ha : a.isSent = false) : Triple (Replied env r) (emit a) (fun _ => Replied env r)
      (fun _ => Replied env r) (Replied env r) := triple_modify fun _ h => h.append ha
  unfold Events.consume Events.cleanup
  refine (Sending.sendResponse _).bind fun _ => (Sending.sendHeader _ _).bind fun _ => ?_
  refine (Sending.sendHeader _ _).bind fun _ => (Sending.sendHeader _ _).bind fun _ => ?_
  refine Sending.endHeaders.bind fun _ => ?_
  apply Triple.bind (R := fun _ => Replied env r)
  · refine (triple_counted (I := fun _ => Streaming env) (fun i => triple_round hmethod hpath subc timeout i) fuel 0 ?_).strengthen ?_
    · exact fun w hw => hw.replied hmethod hpath
    · intro w hw
      rw [← List.append_nil (env.headed _)] at hw
      exact ⟨[], fun _ hblob => absurd hblob List.not_mem_nil, hw⟩
  intro _
  apply Triple.bind (R := fun _ => Replied env r)
  · split
    · exact hemit rfl
    · exact hemit rfl
    · exact triple_pure fun _ h => h
  · exact fun _ => triple_pure fun _ h => h

end stream

theorem handles_handleEventsGET (hmethod : r.method = .get) (fuel : ℕ) :
    Handles env r (Events.handleEventsGET env r fuel) := by
  unfold Events.handleEventsGET
  refine Triple.ite (fun _ => handles_pass) fun _ => Triple.ite (fun _ => ?_) fun hpath => ?_
  · exact (triple_page hmethod).bind fun _ => triple_pure fun _ h => h
  refine handles_authorized fun verdict => Triple.ite (fun _ => handles_failure (by decide)) fun _ => ?_
  refine Triple.ite (fun _ => handles_failure (by decide)) fun _ => Handles.emit rfl ?_
  split
  · exact handles_failureDetail (by decide)
  · refine Triple.ite (fun _ => handles_poll _ _) fun hpoll => handles_consume hmethod ?_ fuel _ _
    rcases List.mem_pair.mp (not_not.mp hpath) with hconsume | hpoll'
    · exact hconsume
    · exact absurd hpoll' hpoll

theorem Sending.of_output {l : List Action} {lines : List HeadLine} {w v : World}
    (hout : TrinityKernel.output w = TrinityKernel.output v) (h : Sending env l lines w) : Sending env l lines v := by
  simp only [TrinityKernel.output, Prod.mk.injEq] at hout
  exact ⟨by rw [World.sent, ← hout.1]; exact h.sent, hout.2.1.symm.trans h.buffer⟩

theorem Sending.reload (kernel : TrinityKernel) (configPath : Value) {U : World → Prop} :
    Triple (Sending env [] []) (TrinityKernel.reload env kernel configPath) (fun _ => Sending env [] [])
      (fun _ => Sending env [] []) U := by
  have hframes {α : Type} {p : Handler α} (h : Frames TrinityKernel.output p) : Triple (Sending env [] []) p
      (fun _ => Sending env [] []) (fun _ => Sending env [] []) U := h.triple fun _ _ hout => Sending.of_output hout
  apply Triple.bind (R := fun _ => Sending env [] [])
  · refine (hframes (TrinityKernel.frames_guardStep _)).bind fun _ => triple_read_bind fun w hw => ?_
    apply Triple.bind (R := fun _ => Sending env [] [])
    · apply triple_ofExcept
      · rintro _ _ _ rfl
        exact hw
      · rintro _ _ _ rfl
        exact hw
    · intro content
      refine Triple.bind (R := fun _ => Sending env [] []) (triple_modify fun _ h => ⟨h.sent, h.buffer⟩) fun _ => ?_
      exact (hframes (TrinityKernel.frames_guardStep _)).bind fun _ => triple_pure fun _ h => h
  · exact fun content => hframes (TrinityKernel.frames_install _ content)

abbrev Results (env : Environment) (p : Handler Value) : Prop :=
  Triple (Sending env [] []) p (fun res w => Sending env [] [] w ∧ ∃ success, res.get "success" = .ok (.bool success))
    (fun _ _ => False) fun _ => False

theorem results_handleReload (kernel : TrinityKernel) (actor : String) (configPath : Value) :
    Results env (kernel.handleReload env actor configPath) := by
  unfold TrinityKernel.handleReload
  refine (Sending.emit rfl).bind fun _ => (Sending.emit rfl).bind fun _ => ?_
  apply Triple.bind (R := fun _ => Sending env [] [])
  · exact Triple.attempt (Sending.reload kernel configPath)
  intro outcome
  cases outcome <;> exact (Sending.emit rfl).bind fun _ => triple_pure fun _ h => ⟨h, _, get_success _ _⟩

theorem results_handleDrain (kernel : TrinityKernel) (actor : String) (enable : Bool) :
    Results env (kernel.handleDrain env actor enable) := by
  unfold TrinityKernel.handleDrain TrinityKernel.setReady
  refine (Sending.emit rfl).bind fun _ => (Sending.emit rfl).bind fun _ => ?_
  apply Triple.bind (R := fun _ => Sending env [] [])
  · exact triple_modify fun _ hw => ⟨hw.sent, hw.buffer⟩
  intro _
  apply Triple.bind (R := fun _ => Sending env [] [])
  · refine Triple.ite (fun _ => ?_) fun _ => triple_pure fun _ h => h
    exact triple_modify fun _ hw => ⟨hw.sent, hw.buffer⟩
  · exact fun _ => (Sending.emit rfl).bind fun _ => triple_pure fun _ h => ⟨h, _, get_success _ _⟩

theorem handles_kernelReply {p : Handler Value} (h : Results env p) :
    Handles env r (p >>= fun res => APIHandler.kernelReply env res) := by
  refine (h.mono (fun _ h => h) (fun _ _ h => h) (fun _ _ h => h.elim) fun _ h => h.elim).bind fun res => ?_
  refine Triple.assume fun ⟨success, hsuccess⟩ => ?_
  unfold APIHandler.kernelReply
  rw [hsuccess, ofExcept_ok_bind]
  apply APIHandler.handles_answer hsuccess
  cases success <;> exact .inl (by decide)

theorem handles_systemOp (sub : String) (body : Value) (kernel : TrinityKernel) :
    Handles env r (APIHandler.systemOp env r sub body kernel) := by
  unfold APIHandler.systemOp
  refine Triple.ite (fun _ => Handles.ofExcept fun _ => handles_kernelReply (results_handleReload _ _ _)) fun _ => ?_
  refine Triple.ite (fun _ => handles_kernelReply (results_handleDrain _ _ _)) fun _ => ?_
  exact Triple.ite (fun _ => handles_kernelReply (results_handleDrain _ _ _)) fun _ => handles_pass

theorem handles_system : Handles env r (APIHandler.system env r) := by
  unfold APIHandler.system
  split
  · exact handles_pass
  refine handles_authorized fun verdict => Triple.ite (fun _ => ?_) fun _ => ?_
  · exact APIHandler.handles_answer (get_success _ _) (.inl (by decide))
  refine Handles.awaitBody (Handles.emit rfl (triple_read_bind fun w hw => ?_))
  split
  · exact (APIHandler.handles_answer (get_success _ _) (.inl (by decide))).at_state hw
  · exact (handles_systemOp _ _ _).at_state hw

theorem Handles.otherwise {p : Handler Bool} {q : Handler Unit} (hp : Handles env r p)
    (hq : Triple (Sending env [] []) q (fun _ => Replied env r) (fun _ => Replied env r) (Replied env r)) :
    Triple (Sending env [] []) (p >>= fun handled => if handled = true then pure () else q) (fun _ => Replied env r)
      (fun _ => Replied env r) (Replied env r) := by
  refine hp.bind fun handled => ?_
  cases handled with
  | true => exact triple_pure fun _ h => h
  | false => exact hq

theorem replied_doGET (hmethod : r.method = .get) (fuel : ℕ) : Triple (Sending env [] []) (APIHandler.doGET env fuel r)
    (fun _ => Replied env r) (fun _ => Replied env r) (Replied env r) := by
  have hprobe {path : String} (hpath : r.path = path) (w : World) (hw : Sending env [] [] w) (code : HTTPStatus)
      (text : String) (h : (path, code, text) ∈ probes) : Triple (· = w) (APIHandler.plain env code text)
        (fun _ => Replied env r) (fun _ => Replied env r) (Replied env r) :=
    (triple_probe hmethod (hpath ▸ h)).at_state hw
  unfold APIHandler.doGET
  refine Triple.ite (fun hpath => triple_read_bind fun w hw => hprobe hpath w hw _ _ ?_) fun _ => ?_
  · cases w.server.kernel.isSome <;> simp [probes]
  refine Triple.ite (fun hpath => triple_read_bind fun w hw => hprobe hpath w hw _ _ ?_) fun _ => ?_
  · cases w.server.ready.getD true <;> simp [probes]
  exact (handles_handleEventsGET hmethod fuel).otherwise (triple_page hmethod)

theorem replied_doPOST (hmethod : r.method = .post) (hpath : ¬APIHandler.IsMusclePath r.path) :
    Triple (Sending env [] []) (APIHandler.doPOST env r) (fun _ => Replied env r) (fun _ => Replied env r) (Replied env r) := by
  have hsystem : Triple (Sending env [] []) (APIHandler.system env r >>= fun answered => if answered = true then pure () else
      APIHandler.json env (Events.failure "unknown endpoint") .notFound) (fun _ => Replied env r) (fun _ => Replied env r)
      (Replied env r) :=
    handles_system.otherwise (APIHandler.triple_jsonReply (get_success _ _) (.inl (by decide)))
  unfold APIHandler.doPOST
  rw [if_neg hpath]
  by_cases hevents : Events.IsEventsPath r.path
  · rw [if_pos hevents]
    exact (handles_handleEventsPOST hmethod).otherwise hsystem
  · rw [if_neg hevents]
    exact hsystem

variable (env)

theorem replied_serve (fuel : ℕ) (hmuscle : r.method = .post → ¬APIHandler.IsMusclePath r.path) :
    Triple (Sending env [] []) (APIHandler.serve env fuel r) (fun _ => Replied env r) (fun _ => Replied env r)
      (Replied env r) := by
  unfold APIHandler.serve
  cases hmethod : r.method with
  | get => exact replied_doGET hmethod fuel
  | post => exact replied_doPOST hmethod (hmuscle hmethod)

theorem replied_final (fuel : ℕ) (server : Server) (files : Files)
    (hmuscle : r.method = .post → ¬APIHandler.IsMusclePath r.path) :
    Replied env r (APIHandler.serve env fuel r (World.start server files)).2 :=
  (replied_serve env fuel hmuscle).final ⟨rfl, (ite_self _).symm⟩

end handlers

theorem replies_well_formed (env : Environment) (fuel : ℕ) (r : Request) (server : Server) (files : Files)
    (hmuscle : r.method = .post → ¬APIHandler.IsMusclePath r.path) :
    Replied env r (APIHandler.serve env fuel r (World.start server files)).2 :=
  replied_final env fuel server files hmuscle

theorem replies_well_formed_broken :
    let env := { Environment.idle with sendFault := fun n => if n = 1 then some .brokenPipeError else none }
    let request := Request.bare .post "/system/drain"
    Replied env request (APIHandler.serve env 0 request
      (World.start (.serving (str "cfg") (.dict []) true) fun _ => none)).2 := by
  intro env request
  have hpath : ¬APIHandler.IsMusclePath request.path := by decide
  exact replies_well_formed env 0 request _ _ fun _ => hpath

end TrinityOS.Service
