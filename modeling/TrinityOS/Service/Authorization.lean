import TrinityOS.Service.APIHandler

namespace TrinityOS.Service

open Program

namespace Action

def Privileged : Action → Prop
  | .publish _ | .ack .. | .subscribe .. | .poll _ | .handleReload .. | .handleDrain .. => True
  | _ => False

def Under (scope sub : String) : Action → Prop
  | .publish m => scope = "events:produce" ∧ m.headers = [("sub", sub)]
  | .ack .. | .subscribe .. | .poll _ => scope = "events:consume"
  | .handleReload actor _ => scope = "system:reload" ∧ actor = sub
  | .handleDrain actor _ => scope = "system:drain" ∧ actor = sub
  | _ => True

theorem under_of_not_privileged {scope sub : String} {a : Action} (h : ¬a.Privileged) :
    a.Under scope sub := by
  cases a <;> first | exact trivial | exact absurd trivial h

end Action

abbrev Quiet {α : Type} (p : Handler α) : Prop := Emits World.trace (fun a => ¬a.Privileged) p

abbrev Acts {α : Type} (scope sub : String) (p : Handler α) : Prop :=
  Emits World.trace (Action.Under scope sub) p

section primitives

variable {S : Action → Prop} {α : Type}

theorem emits_emit {a : Action} (h : S a) : Emits World.trace S (emit a) :=
  fun _ => ⟨[a], rfl, by simpa using h⟩

theorem acts_emit {scope sub : String} {a : Action} (h : a.Under scope sub) :
    Acts scope sub (emit a) :=
  emits_emit h

theorem Quiet.acts {p : Handler α} (h : Quiet p) (scope sub : String) : Acts scope sub p :=
  h.mono fun _ => Action.under_of_not_privileged

theorem emits_transmit {env : Environment} {a : Action} (h : S a) :
    Emits World.trace S (transmit env a) := by
  unfold transmit
  refine (Emits.of_eq fun _ => rfl).bind fun w => (Emits.of_eq fun _ => rfl).bind fun _ => ?_
  cases env.writeFault w with
  | some e => exact emits_raise e
  | none => exact emits_emit h

variable (env : Environment)

theorem quiet_bufferLine (line : HeadLine) : Quiet (bufferLine env line) :=
  Emits.ite (fun _ => emits_pure ()) fun _ => Emits.of_eq fun _ => rfl

theorem quiet_sendResponse (code : HTTPStatus) : Quiet (sendResponse env code) := by
  unfold sendResponse logRequest
  refine Emits.bind ?_ fun _ => quiet_bufferLine env _
  refine (Emits.of_eq fun _ => rfl).bind fun w => ?_
  split
  · exact emits_raise _
  · exact emits_pure ()

theorem quiet_sendHeader (name value : String) : Quiet (sendHeader env name value) := quiet_bufferLine env _

theorem quiet_endHeaders : Quiet (endHeaders env) := by
  refine Emits.ite (fun _ => emits_pure ()) fun _ => (Emits.of_eq fun _ => rfl).bind fun w => ?_
  exact (emits_transmit id).bind fun _ => Emits.of_eq fun _ => rfl

theorem quiet_awaitBody (r : Request) : Quiet (awaitBody r) := Emits.ite (fun _ => emits_wait) fun _ => emits_pure ()

theorem quiet_writeBody (data : List Char) : Quiet (writeBody env data) := emits_transmit id

theorem quiet_sendError (code : HTTPStatus) (message : String) :
    Quiet (sendError env code message) := by
  refine (quiet_sendResponse env code).bind fun _ => (quiet_sendHeader env _ _).bind fun _ => ?_
  refine (quiet_sendHeader env _ _).bind fun _ => (quiet_sendHeader env _ _).bind fun _ => ?_
  exact (quiet_endHeaders env).bind fun _ => quiet_writeBody env _

end primitives

section replies

variable (env : Environment)

theorem quiet_reply (obj : Value) (code : HTTPStatus) {p : List Char → Handler Unit}
    (h : ∀ data, Quiet (p data)) :
    Quiet (do
      let data ← ofExcept (dumps env.floatRepr obj)
      sendResponse env code
      sendHeader env "Content-Type" "application/json"
      sendHeader env "Content-Length" (toString data.length)
      endHeaders env
      p data) := by
  refine (emits_ofExcept _).bind fun data => (quiet_sendResponse env code).bind fun _ => ?_
  refine (quiet_sendHeader env _ _).bind fun _ => (quiet_sendHeader env _ _).bind fun _ => ?_
  exact (quiet_endHeaders env).bind fun _ => h data

theorem Events.quiet_json (obj : Value) (code : HTTPStatus) : Quiet (Events.json env obj code) := by
  refine (quiet_reply env obj code (quiet_writeBody env)).attempt.bind fun sent => ?_
  rcases sent with _ | ⟨⟩ <;> exact emits_pure ()

theorem Events.quiet_answer (obj : Value) (code : HTTPStatus) :
    Quiet (Events.answer env obj code) :=
  (Events.quiet_json env obj code).bind fun _ => emits_pure true

theorem APIHandler.quiet_json (obj : Value) (code : HTTPStatus) :
    Quiet (APIHandler.json env obj code) := by
  refine quiet_reply env obj code fun data => ?_
  refine (quiet_writeBody env data).attempt.bind fun sent => ?_
  split
  · exact emits_pure ()
  · exact emits_pure ()
  · exact emits_raise _

theorem APIHandler.quiet_answer (obj : Value) (code : HTTPStatus) :
    Quiet (APIHandler.answer env obj code) :=
  (APIHandler.quiet_json env obj code).bind fun _ => emits_pure true

end replies

section kernel

variable (env : Environment) (kernel : TrinityKernel)

theorem quiet_openRead (file : Value) : Quiet (TrinityKernel.openRead env file) := by
  have hguard (step : FileStep) : Quiet (TrinityKernel.guardStep env step) :=
    Emits.of_eq fun w => congrArg Prod.fst (TrinityKernel.frames_guardStep step w).2
  refine (hguard _).bind fun _ => (Emits.of_eq fun _ => rfl).bind fun w => (emits_ofExcept _).bind fun content => ?_
  refine Emits.bind (Emits.of_eq fun _ => rfl) fun _ => ?_
  exact (hguard _).bind fun _ => emits_pure content

theorem quiet_reload (configPath : Value) : Quiet (TrinityKernel.reload env kernel configPath) := by
  refine (quiet_openRead env _).bind fun content => Emits.of_eq fun w => ?_
  exact congrArg Prod.fst (TrinityKernel.frames_install _ content w).2

theorem acts_handleReload (actor : String) (configPath : Value) :
    Acts "system:reload" actor (kernel.handleReload env actor configPath) := by
  unfold TrinityKernel.handleReload
  apply Emits.bind
  · exact acts_emit ⟨rfl, rfl⟩
  intro _
  apply Emits.bind
  · exact acts_emit trivial
  intro _
  apply Emits.bind
  · exact ((quiet_reload env kernel configPath).acts _ _).attempt
  intro result
  cases result with
  | ok keys =>
    apply Emits.bind
    · exact acts_emit trivial
    · exact fun _ => emits_pure _
  | error e =>
    apply Emits.bind
    · exact acts_emit trivial
    · exact fun _ => emits_pure _

theorem acts_handleDrain (actor : String) (enable : Bool) :
    Acts "system:drain" actor (kernel.handleDrain env actor enable) := by
  unfold TrinityKernel.handleDrain
  apply Emits.bind
  · exact acts_emit ⟨rfl, rfl⟩
  intro _
  apply Emits.bind
  · exact acts_emit trivial
  intro _
  apply Emits.bind
  · exact Emits.of_eq fun _ => rfl
  intro _
  apply Emits.bind
  · exact Emits.ite (fun _ => Emits.of_eq fun _ => rfl) fun _ => emits_pure ()
  intro _
  apply Emits.bind
  · exact acts_emit trivial
  · exact fun _ => emits_pure _

end kernel

section events

variable (env : Environment) {r : Request}

theorem acts_produce (body : Value) (sub : String) :
    Acts "events:produce" sub (Events.produce env body sub) := by
  refine (emits_ofExcept _).bind fun topic => (emits_ofExcept _).bind fun payload => ?_
  refine (emits_ofExcept _).bind fun key => (emits_ofExcept _).bind fun idk => ?_
  apply Emits.ite
  · intro _
    apply Emits.bind
    · exact acts_emit ⟨rfl, rfl⟩
    intro _
    split
    · exact (Events.quiet_answer env _ _).acts _ _
    · exact (Events.quiet_answer env _ _).acts _ _
  · exact fun _ => (Events.quiet_answer env _ _).acts _ _

theorem acts_ack (body : Value) (sub : String) : Acts "events:consume" sub (Events.ack env body) := by
  refine (emits_ofExcept _).bind fun topic => (emits_ofExcept _).bind fun group => ?_
  refine (emits_ofExcept _).bind fun mid => ?_
  apply Emits.ite
  · intro _
    apply Emits.bind
    · exact acts_emit rfl
    intro _
    split
    · exact (Events.quiet_answer env _ _).acts _ _
    · exact (Events.quiet_answer env _ _).acts _ _
  · exact fun _ => (Events.quiet_answer env _ _).acts _ _

theorem acts_poll (subc : Subscription) (timeout : Float) (sub : String) :
    Acts "events:consume" sub (Events.poll env subc timeout) := by
  unfold Events.poll
  apply Emits.bind
  · exact acts_emit rfl
  intro _
  apply Emits.bind
  · unfold Events.close
    split
    · exact acts_emit trivial
    · exact emits_pure ()
  intro _
  split
  · exact (Events.quiet_answer env _ _).acts _ _
  · exact (Events.quiet_answer env _ _).acts _ _

theorem quiet_writeMessage (msg : Message) : Quiet (Events.writeMessage env msg) := by
  refine (emits_ofExcept _).bind fun blob => ?_
  exact (quiet_writeBody env _).bind fun _ => quiet_writeBody env _

theorem acts_streamRound (subc : Subscription) (timeout : Float) (i : ℕ) (sub : String) :
    Acts "events:consume" sub (Events.streamRound env subc timeout i) := by
  refine Emits.ite (fun _ => ?_) fun _ => emits_pure false
  apply Emits.bind
  · exact acts_emit rfl
  intro _
  split
  · exact emits_pure false
  · exact emits_pure true
  · refine ((quiet_writeMessage env _).acts _ _).attempt.bind fun written => ?_
    rcases written with _ | ⟨⟩
    · exact emits_pure false
    · exact emits_pure true

theorem acts_consume (fuel : ℕ) (subc : Subscription) (timeout : Float) (sub : String) :
    Acts "events:consume" sub (Events.consume env fuel subc timeout) := by
  refine ((quiet_sendResponse env _).acts _ _).bind fun _ => ((quiet_sendHeader env _ _).acts _ _).bind fun _ => ?_
  refine ((quiet_sendHeader env _ _).acts _ _).bind fun _ => ((quiet_sendHeader env _ _).acts _ _).bind fun _ => ?_
  refine ((quiet_endHeaders env).acts _ _).bind fun _ => ?_
  refine (emits_rounds (fun i => acts_streamRound env subc timeout i sub) fuel 0).bind fun _ => ?_
  refine Emits.bind ?_ fun _ => emits_pure true
  unfold Events.cleanup
  split
  · exact acts_emit trivial
  · exact acts_emit trivial
  · exact emits_pure ()

end events

section guarded

variable {α : Type} (env : Environment) (authorization : Option String) (scope : String)

abbrev Guarded (p : Handler α) : Prop :=
  let sub := (env.authorizeBearer authorization [scope]).sub
  EmitsAfter World.trace (.authorize [scope] ⟨true, sub⟩) (fun a => ¬a.Privileged)
    (fun a => env.authorizeBearer authorization [scope] = ⟨true, sub⟩ ∧ a.Under scope sub) p

variable {env authorization scope}

theorem Quiet.guarded {p : Handler α} (h : Quiet p) : Guarded env authorization scope p := Emits.after h

theorem guarded_authorizeBearer {k : Verdict → Handler α} (verdict : Verdict)
    (hv : env.authorizeBearer authorization [scope] = verdict)
    (hok : verdict.ok = true → Acts scope verdict.sub (k verdict))
    (hno : verdict.ok = false → Quiet (k verdict)) :
    Guarded env authorization scope (authorizeBearer env authorization [scope] >>= k) := by
  change Guarded env authorization scope
    (emit (.authorize [scope] (env.authorizeBearer authorization [scope])) >>= fun _ =>
      k (env.authorizeBearer authorization [scope]))
  rw [hv]
  cases hb : verdict.ok with
  | true =>
    have hv' : verdict = ⟨true, verdict.sub⟩ := by rw [← hb]
    apply Emits.unlocked
    · intro w
      rw [hv, ← hv']
      rfl
    · exact id
    · intro _
      refine (hok hb).mono fun a ha => .inr ⟨?_, ?_⟩
      · rw [hv, ← hv']
      · rw [hv]
        exact ha
  | false =>
    apply Quiet.guarded
    exact (emits_emit id).bind fun _ => hno hb

end guarded

section handlers

variable (env : Environment) (r : Request)

theorem guarded_handleEventsGET (fuel : ℕ) :
    Guarded env (r.header "Authorization") "events:consume" (Events.handleEventsGET env r fuel) := by
  unfold Events.handleEventsGET
  dsimp only
  split
  · exact Quiet.guarded (emits_pure false)
  split
  · exact Quiet.guarded ((quiet_sendError env _ _).bind fun _ => emits_pure true)
  apply guarded_authorizeBearer _ rfl
  · intro hok
    rw [if_neg (by simp [hok])]
    refine Emits.ite (fun _ => (Events.quiet_answer env _ _).acts _ _) fun _ => ?_
    apply Emits.bind
    · exact acts_emit rfl
    intro _
    split
    · exact (Events.quiet_answer env _ _).acts _ _
    · exact Emits.ite (fun _ => acts_poll env _ _ _) fun _ => acts_consume env fuel _ _ _
  · intro hno
    rw [if_pos (by simp [hno])]
    exact Events.quiet_answer env _ _

def eventsScope (path : String) : String :=
  if Events.normPath path = "/events/produce" then "events:produce" else "events:consume"

theorem guarded_handleEventsPOST :
    Guarded env (r.header "Authorization") (eventsScope r.path) (Events.handleEventsPOST env r) := by
  unfold Events.handleEventsPOST eventsScope
  by_cases he : ¬Events.IsEventsPath r.path
  · rw [if_pos he]
    exact Quiet.guarded (emits_pure false)
  rw [if_neg he]
  by_cases hp : Events.normPath r.path = "/events/produce"
  · simp only [if_pos hp]
    apply guarded_authorizeBearer _ rfl
    · intro hok
      rw [if_neg (by simp [hok])]
      refine ((quiet_awaitBody r).acts _ _).bind fun _ => ?_
      apply Emits.bind
      · exact acts_emit trivial
      · exact fun _ => acts_produce env _ _
    · intro hno
      rw [if_pos (by simp [hno])]
      exact Events.quiet_answer env _ _
  · simp only [if_neg hp]
    by_cases ha : Events.normPath r.path = "/events/ack"
    · simp only [if_pos ha]
      apply guarded_authorizeBearer _ rfl
      · intro hok
        rw [if_neg (by simp [hok])]
        refine ((quiet_awaitBody r).acts _ _).bind fun _ => ?_
        apply Emits.bind
        · exact acts_emit trivial
        · exact fun _ => acts_ack env _ _
      · intro hno
        rw [if_pos (by simp [hno])]
        exact Events.quiet_answer env _ _
    · simp only [if_neg ha]
      exact Quiet.guarded (Events.quiet_answer env _ _)

theorem acts_systemOp {sub : String} {body : Value} {kernel : TrinityKernel} {scope : String}
    (h : APIHandler.scopesForPath r.path = some [scope]) :
    Acts scope sub (APIHandler.systemOp env r sub body kernel) := by
  have hreply (res : Value) : Acts scope sub (APIHandler.kernelReply env res) :=
    (emits_ofExcept _).bind fun _ => (APIHandler.quiet_answer env _ _).acts _ _
  unfold APIHandler.scopesForPath at h
  refine Emits.ite (fun hp => ?_) fun hr => ?_
  · obtain rfl : "system:reload" = scope := by simpa [hp] using h
    refine (emits_ofExcept _).bind fun configPath => ?_
    exact (acts_handleReload env kernel sub configPath).bind hreply
  · refine Emits.ite (fun hp => ?_) fun hd => Emits.ite (fun hp => ?_) fun _ => emits_pure false
    · obtain rfl : "system:drain" = scope := by simpa [hp] using h
      exact (acts_handleDrain env kernel sub true).bind hreply
    · obtain rfl : "system:drain" = scope := by simpa [hp] using h
      exact (acts_handleDrain env kernel sub false).bind hreply

def systemScope (path : String) : String :=
  if path = "/system/reload" then "system:reload" else "system:drain"

theorem scopesForPath_eq {path : String} {scopes : List String}
    (h : APIHandler.scopesForPath path = some scopes) : scopes = [systemScope path] := by
  unfold APIHandler.scopesForPath at h
  unfold systemScope
  split at h
  · next hp => rw [if_pos hp]; simpa using h.symm
  · next hp =>
    rw [if_neg hp]
    split at h
    · simpa using h.symm
    · cases h

theorem guarded_system :
    Guarded env (r.header "Authorization") (systemScope r.path) (APIHandler.system env r) := by
  unfold APIHandler.system
  cases h : APIHandler.scopesForPath r.path with
  | none => exact Quiet.guarded (emits_pure false)
  | some scopes =>
    obtain rfl := scopesForPath_eq h
    apply guarded_authorizeBearer _ rfl
    · intro hok
      rw [if_neg (by simp [hok])]
      refine ((quiet_awaitBody r).acts _ _).bind fun _ => ?_
      apply Emits.bind
      · exact acts_emit trivial
      intro _
      refine (Emits.of_eq fun _ => rfl).bind fun w => ?_
      split
      · exact (APIHandler.quiet_answer env _ _).acts _ _
      · exact acts_systemOp env r h
    · intro hno
      rw [if_pos (by simp [hno])]
      exact APIHandler.quiet_answer env _ _

def requestScope (method : Method) (path : String) : String :=
  match method with
  | .get => "events:consume"
  | .post => if Events.IsEventsPath path then eventsScope path else systemScope path

theorem guarded_doGET (fuel : ℕ) :
    Guarded env (r.header "Authorization") "events:consume" (APIHandler.doGET env fuel r) := by
  have hplain (code : HTTPStatus) (data : String) : Quiet (APIHandler.plain env code data) := by
    refine (quiet_sendResponse env code).bind fun _ => (quiet_sendHeader env _ _).bind fun _ => ?_
    exact (quiet_endHeaders env).bind fun _ => quiet_writeBody env _
  unfold APIHandler.doGET
  split
  · exact Quiet.guarded ((Emits.of_eq fun _ => rfl).bind fun w => hplain _ _)
  split
  · exact Quiet.guarded ((Emits.of_eq fun _ => rfl).bind fun w => hplain _ _)
  · refine (guarded_handleEventsGET env r fuel).bind fun handled => Quiet.guarded ?_
    cases handled with
    | true => exact emits_pure ()
    | false => exact quiet_sendError env _ _

theorem guarded_doPOST (hm : ¬APIHandler.IsMusclePath r.path) :
    Guarded env (r.header "Authorization") (requestScope .post r.path) (APIHandler.doPOST env r) := by
  unfold APIHandler.doPOST requestScope
  rw [if_neg hm]
  refine (Quiet.guarded (emits_pure false)).bind fun muscle => ?_
  refine EmitsAfter.ite (fun _ => Quiet.guarded (emits_pure ())) fun _ => ?_
  by_cases he : Events.IsEventsPath r.path
  · simp only [if_pos he]
    refine (guarded_handleEventsPOST env r).bind fun handled => Quiet.guarded ?_
    cases handled with
    | true => exact emits_pure ()
    | false =>
      unfold APIHandler.system
      rw [APIHandler.scopesForPath_of_isEventsPath he]
      exact (emits_pure false).bind fun _ => Emits.ite (fun _ => emits_pure ()) fun _ =>
        APIHandler.quiet_json env _ _
  · simp only [if_neg he]
    refine (Quiet.guarded (emits_pure false)).bind fun handled => ?_
    refine EmitsAfter.ite (fun _ => Quiet.guarded (emits_pure ())) fun _ => ?_
    refine (guarded_system env r).bind fun answered => Quiet.guarded ?_
    exact Emits.ite (fun _ => emits_pure ()) fun _ => APIHandler.quiet_json env _ _

theorem guarded_serve (fuel : ℕ) (hm : ¬APIHandler.IsMusclePath r.path) :
    Guarded env (r.header "Authorization") (requestScope r.method r.path)
      (APIHandler.serve env fuel r) := by
  unfold APIHandler.serve
  cases hr : r.method with
  | get => exact guarded_doGET env r fuel
  | post => exact guarded_doPOST env r hm

end handlers

theorem privileged_calls_authorized (env : Environment) (method : Method) (path : String)
    (header : String → Option String) (hm : ¬APIHandler.IsMusclePath path) :
    ∃ scope sub, ∀ fuel read waits server files i a,
      let w := (APIHandler.serve env fuel ⟨method, path, header, read, waits⟩ (World.start server files)).2
      w.trace[i]? = some a → a.Privileged →
        env.authorizeBearer (header "Authorization") [scope] = ⟨true, sub⟩ ∧
          .authorize [scope] ⟨true, sub⟩ ∈ w.trace.take i ∧ a.Under scope sub := by
  let scope := requestScope method path
  refine ⟨scope, (env.authorizeBearer (header "Authorization") [scope]).sub, ?_⟩
  intro fuel read waits server files i a w hi ha
  obtain ⟨new, hn, hb⟩ := guarded_serve env ⟨method, path, header, read, waits⟩ fuel hm
    (World.start server files)
  have hw : w.trace = new := hn
  rw [hw] at hi ⊢
  rcases hb i a hi with hq | ⟨⟨hv, hu⟩, hkey⟩
  · exact absurd ha hq
  · exact ⟨hv, hkey, hu⟩

theorem privileged_calls_authorized_produce :
    let header := fun name => if name = "Content-Length" then some "13" else none
    let body := [0x7b, 0x22, 0x74, 0x6f, 0x70, 0x69, 0x63, 0x22, 0x3a, 0x22, 0x61, 0x22, 0x7d]
    let run := APIHandler.serve Environment.idle 0
      ⟨.post, "/events/produce?x#y", header, fun _ => .ok body, fun _ => false⟩
      (World.start ⟨none, none⟩ fun _ => none)
    (∃ a, run.2.trace[2]? = some a ∧ a.Privileged) ∧
      ∃ scope sub, ∀ fuel read waits server files i a,
        let w := (APIHandler.serve Environment.idle fuel ⟨.post, "/events/produce?x#y", header, read, waits⟩
          (World.start server files)).2
        w.trace[i]? = some a → a.Privileged →
          Environment.idle.authorizeBearer (header "Authorization") [scope] = ⟨true, sub⟩ ∧
            .authorize [scope] ⟨true, sub⟩ ∈ w.trace.take i ∧ a.Under scope sub :=
  ⟨⟨_, rfl, trivial⟩, privileged_calls_authorized _ _ _ _ (by decide)⟩

end TrinityOS.Service
