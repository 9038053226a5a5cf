import TrinityOS.Service.Authorization
import TrinityOS.Service.Reload
import TrinityOS.Run

namespace TrinityOS.Service

open Program

abbrev Files := Str → Option (List UInt8)

abbrev Stored (P : Server → Files → Prop) (w : World) : Prop := P w.server w.files

section keeps

variable {P : Server → Files → Prop}

theorem keeps_emit (a : Action) {E : PyError → World → Prop} {U : World → Prop} :
    Triple (Stored P) (emit a) (fun _ => Stored P) E U :=
  triple_modify fun _ h => h

variable (env : Environment)

theorem keeps_bufferLine (line : HeadLine) : Keeps (Stored P) (bufferLine env line) :=
  Triple.ite (fun _ => keeps_pure ()) fun _ => triple_modify fun _ h => h

theorem keeps_sendResponse (code : HTTPStatus) : Keeps (Stored P) (sendResponse env code) :=
  (triple_logRequest (fun _ h _ => h) fun _ _ h _ => h).bind fun _ => keeps_bufferLine env _

theorem keeps_sendHeader (name value : String) : Keeps (Stored P) (sendHeader env name value) :=
  keeps_bufferLine env _

theorem keeps_transmit (a : Action) : Keeps (Stored P) (transmit env a) :=
  triple_transmit (fun _ h _ => h) fun _ _ h _ => h

theorem keeps_endHeaders : Keeps (Stored P) (endHeaders env) := by
  refine Triple.ite (fun _ => keeps_pure ()) fun _ => triple_read_bind fun w hw => ?_
  refine Triple.bind (R := fun _ => Stored P) ?_ fun _ => triple_modify fun _ h => h
  exact (keeps_transmit env _).at_state hw

theorem keeps_awaitBody (r : Request) : Keeps (Stored P) (awaitBody r) :=
  Triple.ite (fun _ => keeps_wait) fun _ => keeps_pure ()

theorem keeps_writeBody (data : List Char) : Keeps (Stored P) (writeBody env data) := keeps_transmit env _

theorem keeps_sendError (code : HTTPStatus) (message : String) : Keeps (Stored P) (sendError env code message) := by
  refine (keeps_sendResponse env code).bind fun _ => (keeps_sendHeader env _ _).bind fun _ => ?_
  refine (keeps_sendHeader env _ _).bind fun _ => (keeps_sendHeader env _ _).bind fun _ => ?_
  exact (keeps_endHeaders env).bind fun _ => keeps_writeBody env _

theorem keeps_reply (obj : Value) (code : HTTPStatus) {p : List Char → Handler Unit}
    (h : ∀ data, Keeps (Stored P) (p data)) :
    Keeps (Stored P) (do
      let data ← ofExcept (dumps env.floatRepr obj)
      sendResponse env code
      sendHeader env "Content-Type" "application/json"
      sendHeader env "Content-Length" (toString data.length)
      endHeaders env
      p data) := by
  refine (keeps_ofExcept _).bind fun data => (keeps_sendResponse env code).bind fun _ => ?_
  refine (keeps_sendHeader env _ _).bind fun _ => (keeps_sendHeader env _ _).bind fun _ => ?_
  exact (keeps_endHeaders env).bind fun _ => h data

theorem Events.keeps_answer (obj : Value) (code : HTTPStatus) : Keeps (Stored P) (Events.answer env obj code) := by
  unfold Events.answer Events.json
  refine Triple.bind ?_ fun _ => keeps_pure true
  refine (Keeps.attempt (keeps_reply env obj code (keeps_writeBody env))).bind fun sent => ?_
  rcases sent with _ | ⟨⟩ <;> exact keeps_pure ()

theorem APIHandler.keeps_json (obj : Value) (code : HTTPStatus) : Keeps (Stored P) (APIHandler.json env obj code) := by
  refine keeps_reply env obj code fun data => ?_
  refine (Keeps.attempt (keeps_writeBody env data)).bind fun sent => ?_
  split
  · exact keeps_pure ()
  · exact keeps_pure ()
  · exact keeps_raise _

theorem APIHandler.keeps_answer (obj : Value) (code : HTTPStatus) :
    Keeps (Stored P) (APIHandler.answer env obj code) :=
  (APIHandler.keeps_json env obj code).bind fun _ => keeps_pure true

theorem keeps_plain (code : HTTPStatus) (data : String) : Keeps (Stored P) (APIHandler.plain env code data) := by
  refine (keeps_sendResponse env code).bind fun _ => (keeps_sendHeader env _ _).bind fun _ => ?_
  exact (keeps_endHeaders env).bind fun _ => keeps_writeBody env _

theorem keeps_authorizeBearer (authorization : Option String) (scopes : List String) :
    Keeps (Stored P) (authorizeBearer env authorization scopes) :=
  (keeps_emit _).bind fun _ => keeps_pure _

theorem keeps_produce (body : Value) (sub : String) : Keeps (Stored P) (Events.produce env body sub) := by
  refine (keeps_ofExcept _).bind fun topic => (keeps_ofExcept _).bind fun payload => ?_
  refine (keeps_ofExcept _).bind fun key => (keeps_ofExcept _).bind fun idk => ?_
  refine Triple.ite (fun _ => ?_) fun _ => Events.keeps_answer env _ _
  refine (keeps_emit _).bind fun _ => ?_
  split <;> exact Events.keeps_answer env _ _

theorem keeps_ack (body : Value) : Keeps (Stored P) (Events.ack env body) := by
  refine (keeps_ofExcept _).bind fun topic => (keeps_ofExcept _).bind fun group => ?_
  refine (keeps_ofExcept _).bind fun mid => ?_
  refine Triple.ite (fun _ => ?_) fun _ => Events.keeps_answer env _ _
  refine (keeps_emit _).bind fun _ => ?_
  split <;> exact Events.keeps_answer env _ _

theorem keeps_poll (subc : Subscription) (timeout : Float) : Keeps (Stored P) (Events.poll env subc timeout) := by
  unfold Events.poll Events.close
  refine (keeps_emit _).bind fun _ => ?_
  apply Triple.bind (R := fun _ => Stored P)
  · split
    · exact keeps_emit _
    · exact keeps_pure ()
  · intro _
    split <;> exact Events.keeps_answer env _ _

theorem keeps_streamRound (subc : Subscription) (timeout : Float) (i : ℕ) :
    Keeps (Stored P) (Events.streamRound env subc timeout i) := by
  have hwrite (msg : Message) : Keeps (Stored P) (Events.writeMessage env msg) :=
    (keeps_ofExcept _).bind fun _ => (keeps_writeBody env _).bind fun _ => keeps_writeBody env _
  refine Triple.ite (fun _ => ?_) fun _ => keeps_pure false
  refine (keeps_emit _).bind fun _ => ?_
  split
  · exact keeps_pure false
  · exact keeps_pure true
  · refine (Keeps.attempt (hwrite _)).bind fun written => ?_
    rcases written with _ | ⟨⟩
    · exact keeps_pure false
    · exact keeps_pure true

theorem keeps_consume (fuel : ℕ) (subc : Subscription) (timeout : Float) :
    Keeps (Stored P) (Events.consume env fuel subc timeout) := by
  unfold Events.consume Events.cleanup
  refine (keeps_sendResponse env _).bind fun _ => (keeps_sendHeader env _ _).bind fun _ => ?_
  refine (keeps_sendHeader env _ _).bind fun _ => (keeps_sendHeader env _ _).bind fun _ => ?_
  refine (keeps_endHeaders env).bind fun _ => ?_
  refine (triple_rounds (keeps_streamRound env subc timeout) (fun _ h => h) fuel 0).bind fun _ => ?_
  refine Triple.bind ?_ fun _ => keeps_pure true
  split
  · exact keeps_emit _
  · exact keeps_emit _
  · exact keeps_pure ()

variable (r : Request)

theorem keeps_handleEventsGET (fuel : ℕ) : Keeps (Stored P) (Events.handleEventsGET env r fuel) := by
  unfold Events.handleEventsGET
  refine Triple.ite (fun _ => keeps_pure false) fun _ => ?_
  refine Triple.ite (fun _ => (keeps_sendError env _ _).bind fun _ => keeps_pure true) fun _ => ?_
  refine (keeps_authorizeBearer env _ _).bind fun verdict => ?_
  refine Triple.ite (fun _ => Events.keeps_answer env _ _) fun _ => ?_
  refine Triple.ite (fun _ => Events.keeps_answer env _ _) fun _ => ?_
  refine (keeps_emit _).bind fun _ => ?_
  split
  · exact Events.keeps_answer env _ _
  · exact Triple.ite (fun _ => keeps_poll env _ _) fun _ => keeps_consume env fuel _ _

theorem keeps_handleEventsPOST : Keeps (Stored P) (Events.handleEventsPOST env r) := by
  unfold Events.handleEventsPOST
  refine Triple.ite (fun _ => keeps_pure false) fun _ => ?_
  dsimp only
  split
  · exact Events.keeps_answer env _ _
  refine (keeps_authorizeBearer env _ _).bind fun verdict => ?_
  refine Triple.ite (fun _ => Events.keeps_answer env _ _) fun _ => (keeps_awaitBody r).bind fun _ => ?_
  refine (keeps_emit _).bind fun _ => ?_
  refine Triple.ite (fun _ => keeps_produce env _ _) fun _ => ?_
  exact Triple.ite (fun _ => keeps_ack env _) fun _ => Events.keeps_answer env _ _

theorem keeps_doGET (fuel : ℕ) : Keeps (Stored P) (APIHandler.doGET env fuel r) := by
  unfold APIHandler.doGET
  have hread {p : World → Handler Unit} (h : ∀ w, Keeps (Stored P) (p w)) : Keeps (Stored P) (read >>= p) :=
    triple_read_bind fun w hw => (h w).at_state hw
  refine Triple.ite (fun _ => hread fun w => keeps_plain env _ _) fun _ => ?_
  refine Triple.ite (fun _ => hread fun w => keeps_plain env _ _) fun _ => ?_
  refine (keeps_handleEventsGET env r fuel).bind fun handled => ?_
  exact Triple.ite (fun _ => keeps_pure ()) fun _ => keeps_sendError env _ _

end keeps

/-- The server as `main` leaves it, with a kernel that knows it, and one readiness in both. -/
def Server.serving (configFile : Str) (config : Value) (ready : Bool) : Server where
  kernel := some ⟨configFile, config, ready, true⟩
  ready := some ready

structure Exchange where
  env : Environment
  fuel : ℕ
  request : Request

namespace Exchange

def accepted (x : Exchange) (scope : String) : Bool :=
  (x.env.authorizeBearer (x.request.header "Authorization") [scope]).ok

def drains (x : Exchange) : Option Bool :=
  if x.request.method = .post ∧ x.accepted "system:drain" ∧ x.request.stalls = false then
    if x.request.path = "/system/drain" then some true
    else if x.request.path = "/system/undrain" then some false
    else none
  else none

def Reloads (x : Exchange) : Prop :=
  x.request.method = .post ∧ x.request.path = "/system/reload" ∧ x.accepted "system:reload" = true

instance (x : Exchange) : Decidable x.Reloads := inferInstanceAs (Decidable (_ ∧ _ ∧ _))

def Loads (x : Exchange) (configFile : Str) (files : Files) (config : Value) : Prop :=
  x.Reloads ∧ ∃ configPath path content, (APIHandler.body x.env x.request).get "config_path" = .ok configPath ∧
    (if configPath.truthy then configPath else .str configFile) = .str path ∧ files path = some content ∧
    TrinityKernel.jsonLoad x.env content = .ok config

def readiness (x : Exchange) (ready : Bool) : Bool := (x.drains.map (!·)).getD ready

/-- The muscle endpoints of the installed package leave server and files alone. -/
def MuscleKeeps (x : Exchange) : Prop :=
  APIHandler.IsMusclePath x.request.path → ∀ w, (x.env.handleMusclePost x.request w).2.server = w.server ∧
    (x.env.handleMusclePost x.request w).2.files = w.files

def Up (configFile : Str) (config : Value) (ready : Bool) (files : Files) (server : Server)
    (files' : Files) : Prop :=
  server = .serving configFile config ready ∧ files' = files

inductive Leaves (x : Exchange) (configFile : Str) (config : Value) (ready : Bool) (files : Files) :
    Server → Files → Prop
  | kept : Leaves x configFile config ready files (.serving configFile config (x.readiness ready)) files
  | reloaded {configPath : Value} {b : Bool} {w t : World} (h : x.Reloads)
      (hpath : (APIHandler.body x.env x.request).get "config_path" = .ok configPath)
      (hup : Stored (Up configFile config ready files) w)
      (heffect : TrinityKernel.ReloadEffect x.env w
        (TrinityKernel.cfgFile ⟨configFile, config, ready, true⟩ configPath) b t) :
      Leaves x configFile config ready files t.server t.files

variable {x : Exchange} {configFile : Str} {config : Value} {ready : Bool} {files : Files}

theorem Up.leaves {ready' : Bool} (hready : x.readiness ready = ready') (w : World)
    (h : Stored (Up configFile config ready' files) w) : Stored (x.Leaves configFile config ready files) w := by
  obtain ⟨hserver, hfiles⟩ := h
  rw [Stored, hserver, hfiles, ← hready]
  exact .kept

theorem readiness_of_scopes (h : APIHandler.scopesForPath x.request.path = none) : x.readiness ready = ready := by
  unfold APIHandler.scopesForPath at h
  split at h
  · cases h
  · split at h
    · cases h
    next hdrain =>
      rw [not_or] at hdrain
      unfold readiness drains
      rw [if_neg hdrain.1, if_neg hdrain.2, ite_self]
      rfl

theorem triple_handleDrain (env : Environment) (actor : String) (enable : Bool) {E : PyError → World → Prop}
    {U : World → Prop} :
    Triple (Stored (Up configFile config ready files))
      (TrinityKernel.handleDrain env ⟨configFile, config, ready, true⟩ actor enable)
      (fun _ => Stored (Up configFile config (!enable) files)) E U := by
  rintro ⟨server, files', buffer, sends, connectionClosed, stderrClosed, trace⟩ ⟨rfl, rfl⟩
  exact ⟨rfl, rfl⟩

theorem Reloads.readiness (h : x.Reloads) : x.readiness ready = ready := by
  unfold Exchange.readiness drains
  rw [h.2.1]
  split <;> rfl

theorem triple_handleReload (h : x.Reloads) (actor : String) {configPath : Value}
    (hpath : (APIHandler.body x.env x.request).get "config_path" = .ok configPath) {E : PyError → World → Prop}
    {U : World → Prop} :
    Triple (Stored (Up configFile config ready files))
      (TrinityKernel.handleReload x.env ⟨configFile, config, ready, true⟩ actor configPath)
      (fun _ => Stored (x.Leaves configFile config ready files)) E U := by
  intro w hw
  have hrun := @TrinityKernel.triple_handleReload x.env w ⟨configFile, config, ready, true⟩ actor configPath w ⟨rfl, rfl⟩
  generalize TrinityKernel.handleReload x.env ⟨configFile, config, ready, true⟩ actor configPath w = run at hrun
  obtain ⟨outcome | e | _, t⟩ := run
  · obtain ⟨b, -, heffect⟩ := hrun
    exact .reloaded h hpath hw heffect
  · exact hrun.elim
  · exact hrun.elim

theorem keeps_kernelReply {P : Server → Files → Prop} (env : Environment) (res : Value) :
    Keeps (Stored P) (APIHandler.kernelReply env res) :=
  (keeps_ofExcept _).bind fun _ => APIHandler.keeps_answer env _ _

theorem triple_systemOp {scopes : List String} (hpost : x.request.method = .post)
    (hscopes : APIHandler.scopesForPath x.request.path = some scopes)
    (haccepted : (x.env.authorizeBearer (x.request.header "Authorization") scopes).ok = true)
    (hread : x.request.stalls = false) (sub : String) :
    Triple (Stored (Up configFile config ready files))
      (APIHandler.systemOp x.env x.request sub (APIHandler.body x.env x.request) ⟨configFile, config, ready, true⟩)
      (fun _ => Stored (x.Leaves configFile config ready files))
      (fun _ => Stored (x.Leaves configFile config ready files)) (Stored (x.Leaves configFile config ready files)) := by
  unfold APIHandler.scopesForPath at hscopes
  unfold APIHandler.systemOp
  split at hscopes
  case isTrue hpath =>
    obtain rfl := Option.some.inj hscopes
    have hreloads : x.Reloads := ⟨hpost, hpath, haccepted⟩
    rw [if_pos hpath]
    apply Triple.bind (R := fun configPath w => Stored (Up configFile config ready files) w ∧
      (APIHandler.body x.env x.request).get "config_path" = .ok configPath)
    · exact triple_ofExcept (fun _ hpath _ hw => ⟨hw, hpath⟩) fun _ _ => Up.leaves hreloads.readiness
    intro configPath
    apply Triple.assume
    intro hget
    exact (triple_handleReload hreloads sub hget).bind fun res => keeps_kernelReply x.env res
  case isFalse hpath =>
    rw [if_neg hpath]
    split at hscopes
    case isFalse => cases hscopes
    case isTrue hdrain =>
      obtain rfl := Option.some.inj hscopes
      have hready (enable : Bool) (h : x.drains = some enable) : x.readiness ready = !enable := by
        rw [readiness, h]
        rfl
      have hdrains (enable : Bool) (h : x.drains = some enable) (res : Value) :=
        (keeps_kernelReply (P := Up configFile config (!enable) files) x.env res).after (Up.leaves (hready enable h))
      by_cases hon : x.request.path = "/system/drain"
      · rw [if_pos hon]
        exact (triple_handleDrain x.env sub true).bind (hdrains true (by
          rw [drains, if_pos ⟨hpost, haccepted, hread⟩, if_pos hon]))
      · have hoff := hdrain.resolve_left hon
        rw [if_neg hon, if_pos hoff]
        exact (triple_handleDrain x.env sub false).bind (hdrains false (by
          rw [drains, if_pos ⟨hpost, haccepted, hread⟩, if_neg hon, if_pos hoff]))

theorem readiness_of_refused {scopes : List String}
    (hscopes : APIHandler.scopesForPath x.request.path = some scopes)
    (hrefused : (x.env.authorizeBearer (x.request.header "Authorization") scopes).ok ≠ true) :
    x.readiness ready = ready := by
  obtain rfl := scopesForPath_eq hscopes
  unfold systemScope at hrefused
  unfold readiness drains
  by_cases hpath : x.request.path = "/system/reload"
  · rw [hpath]
    split <;> rfl
  · rw [if_neg hpath] at hrefused
    rw [if_neg fun h => hrefused h.2.1]
    rfl

theorem readiness_of_stalls (h : x.request.stalls = true) : x.readiness ready = ready := by
  unfold readiness drains
  rw [if_neg (by simp [h])]
  rfl

theorem triple_system (hpost : x.request.method = .post) {scopes : List String}
    (hscopes : APIHandler.scopesForPath x.request.path = some scopes) :
    Triple (Stored (Up configFile config ready files)) (APIHandler.system x.env x.request)
      (fun _ => Stored (x.Leaves configFile config ready files))
      (fun _ => Stored (x.Leaves configFile config ready files)) (Stored (x.Leaves configFile config ready files)) := by
  unfold APIHandler.system
  rw [hscopes]
  change Triple _ (emit _ >>= fun _ => _) _ _ _
  refine (keeps_emit _).bind fun _ => Triple.ite (fun hrefused => ?_) fun haccepted => ?_
  · exact (APIHandler.keeps_answer _ _ _).after (Up.leaves (readiness_of_refused hscopes hrefused))
  · refine Triple.bind (R := fun _ w => Stored (Up configFile config ready files) w ∧ x.request.stalls = false) ?_ ?_
    · refine Triple.ite (fun hstalls => triple_wait ?_) fun hread => triple_pure fun w hw => ⟨hw, by simpa using hread⟩
      exact Up.leaves (readiness_of_stalls hstalls)
    intro _
    refine Triple.assume fun hread => (keeps_emit _).bind fun _ => triple_read_bind fun w hw => ?_
    rw [hw.1]
    exact (triple_systemOp hpost hscopes (not_not.mp haccepted) hread _).at_state hw

theorem not_isMusclePath_of_scopes {path : String} {scopes : List String}
    (h : APIHandler.scopesForPath path = some scopes) : ¬APIHandler.IsMusclePath path := by
  unfold APIHandler.scopesForPath at h
  split at h
  case isTrue hpath =>
    rw [hpath]
    decide
  case isFalse =>
    split at h
    case isTrue hpath => rcases hpath with rfl | rfl <;> decide
    case isFalse => cases h

theorem keeps_doPOST {P : Server → Files → Prop} (hmuscle : x.MuscleKeeps)
    (h : APIHandler.scopesForPath x.request.path = none) : Keeps (Stored P) (APIHandler.doPOST x.env x.request) := by
  have hsystem : Keeps (Stored P) (APIHandler.system x.env x.request) := by
    unfold APIHandler.system
    rw [h]
    exact keeps_pure false
  have hunknown (answered : Bool) : Keeps (Stored P) (if answered = true then pure () else
      APIHandler.json x.env (Events.failure "unknown endpoint") .notFound) :=
    Triple.ite (fun _ => keeps_pure ()) fun _ => APIHandler.keeps_json _ _ _
  unfold APIHandler.doPOST
  have hhandled (handled : Bool) := Triple.ite (c := handled = true) (fun _ => keeps_pure (I := Stored P) ())
    fun _ => hsystem.bind hunknown
  have hafter (muscle : Bool) := Triple.ite (c := muscle = true) (fun _ => keeps_pure (I := Stored P) ())
    fun _ => Triple.ite (c := Events.IsEventsPath x.request.path)
      (fun _ => (keeps_handleEventsPOST x.env x.request).bind hhandled) fun _ => (keeps_pure false).bind hhandled
  refine Triple.ite (fun hpath => Triple.bind ?_ hafter) fun _ => (keeps_pure false).bind hafter
  apply Keeps.of_state
  intro w hw
  obtain ⟨hserver, hfiles⟩ := hmuscle hpath w
  rw [Stored, hserver, hfiles]
  exact hw

theorem triple_serve (x : Exchange) (hmuscle : x.MuscleKeeps) :
    Triple (Stored (Up configFile config ready files)) (APIHandler.serve x.env x.fuel x.request)
      (fun _ => Stored (x.Leaves configFile config ready files))
      (fun _ => Stored (x.Leaves configFile config ready files)) (Stored (x.Leaves configFile config ready files)) := by
  unfold APIHandler.serve
  cases hmethod : x.request.method with
  | get =>
    apply (keeps_doGET x.env x.request x.fuel).after
    apply Up.leaves
    unfold readiness drains
    rw [hmethod, if_neg (by simp)]
    rfl
  | post =>
    cases hscopes : APIHandler.scopesForPath x.request.path with
    | none => exact (keeps_doPOST hmuscle hscopes).after (Up.leaves (readiness_of_scopes hscopes))
    | some scopes =>
      have hevents : ¬Events.IsEventsPath x.request.path := by
        intro h
        rw [APIHandler.scopesForPath_of_isEventsPath h] at hscopes
        cases hscopes
      unfold APIHandler.doPOST
      rw [if_neg (not_isMusclePath_of_scopes hscopes), if_neg hevents]
      change Triple _ (APIHandler.system x.env x.request >>= _) _ _ _
      refine (triple_system hmethod hscopes).bind fun answered => ?_
      exact Triple.ite (fun _ => keeps_pure ()) fun _ => APIHandler.keeps_json _ _ _

theorem Leaves.serves {server : Server} {files' : Files} (h : x.Leaves configFile config ready files server files') :
    ∃ config', server = .serving configFile config' (x.readiness ready) ∧
      (config' = config ∨ x.Loads configFile files config') := by
  cases h with
  | kept => exact ⟨config, rfl, .inl rfl⟩
  | @reloaded configPath _ w t hreloads hpath hup heffect =>
    rw [hreloads.readiness]
    cases heffect with
    | refused hrefused => exact ⟨config, hrefused.server.trans hup.1, .inl rfl⟩
    | @committed _ path v hcommitted =>
      obtain ⟨hfile, ⟨content, hcontent, hload⟩, -⟩ := hcommitted.commits
      rw [hup.2] at hcontent
      refine ⟨v, ?_, .inr ⟨hreloads, configPath, path, content, hpath, hfile, hcontent, hload⟩⟩
      rw [hcommitted.server, hup.1]
      rfl

theorem Leaves.files_eq {server : Server} {files' : Files} (h : x.Leaves configFile config ready files server files')
    (hnot : ¬x.Reloads) : files' = files := by
  cases h with
  | kept => rfl
  | reloaded hreloads => exact absurd hreloads hnot

def next (s : Server × Files) (x : Exchange) : Server × Files :=
  let w := (APIHandler.serve x.env x.fuel x.request (World.start s.1 s.2)).2
  (w.server, w.files)

theorem leaves_next (configFile : Str) (config : Value) (ready : Bool) (files : Files) (hmuscle : x.MuscleKeeps) :
    x.Leaves configFile config ready files (next (.serving configFile config ready, files) x).1
      (next (.serving configFile config ready, files) x).2 :=
  (triple_serve x hmuscle).final ⟨rfl, rfl⟩

end Exchange

open Exchange

def readiness (xs : List Exchange) : Bool := ((xs.filterMap drains).getLast?.map (!·)).getD true

theorem readiness_concat (xs : List Exchange) (x : Exchange) :
    readiness (xs ++ [x]) = x.readiness (readiness xs) := by
  unfold readiness Exchange.readiness
  rw [List.filterMap_append]
  cases h : x.drains with
  | none => simp [h]
  | some enable => simp [h]

structure Session (configFile : Str) (config : Value) (files : Files) (xs : List Exchange) (s : Server × Files) :
    Prop where
  serves : ∃ config', s.1 = .serving configFile config' (readiness xs) ∧
    (config' = config ∨ ∃ pre x, pre ++ [x] <+: xs ∧
      x.Loads configFile (Run.final next (.serving configFile config true, files) pre).2 config')
  files : (∀ x ∈ xs, ¬x.Reloads) → s.2 = files

theorem session_final (configFile : Str) (config : Value) (files : Files) (xs : List Exchange)
    (hmuscle : ∀ x ∈ xs, x.MuscleKeeps) :
    Session configFile config files xs (Run.final next (.serving configFile config true, files) xs) := by
  induction xs using List.reverseRecOn with
  | nil => exact ⟨⟨config, rfl, .inl rfl⟩, fun _ => rfl⟩
  | append_singleton xs x ih =>
    obtain ⟨⟨config', hserver, hconfig⟩, hfiles⟩ := ih fun y hy => hmuscle y (List.mem_append_left _ hy)
    rw [Run.final_concat]
    generalize hs : Run.final next (.serving configFile config true, files) xs = s at hserver hfiles ⊢
    obtain ⟨server, files'⟩ := s
    obtain rfl : server = _ := hserver
    have hleaves := leaves_next configFile config' (readiness xs) files'
      (hmuscle x (List.mem_append_right _ (List.mem_singleton_self x)))
    obtain ⟨config'', hserver', hconfig'⟩ := hleaves.serves
    constructor
    · refine ⟨config'', by rw [readiness_concat, hserver'], ?_⟩
      rcases hconfig' with rfl | hloads
      · exact hconfig.imp_right fun ⟨pre, y, hy, hloads⟩ => ⟨pre, y, hy.trans (List.prefix_append _ _), hloads⟩
      · refine .inr ⟨xs, x, List.prefix_rfl, ?_⟩
        rw [hs]
        exact hloads
    · intro h
      rw [hleaves.files_eq (h x (List.mem_append_right _ (List.mem_singleton_self x)))]
      exact hfiles fun y hy => h y (List.mem_append_left _ hy)

def Environment.headed (env : Environment) (lines : List HeadLine) : List Action :=
  if env.http09 then [] else [.head lines]

def plainReply (env : Environment) (code : HTTPStatus) (text : String) : List Action :=
  env.headed [.status code.code, .field "Content-Type" "text/plain"] ++ [.write text.toList]

theorem trace_plain {env : Environment} (h : env.Connected) (code : HTTPStatus) (text : String)
    (server : Server) (files : Files) :
    (APIHandler.plain env code text (World.start server files)).2.trace = plainReply env code text := by
  have htransmit (a : Action) (w : World) (hw : w.connectionClosed = false) :
      transmit env a w = (.returned (), { w with sends := w.sends + 1, trace := w.trace ++ [a] }) := by
    simp only [transmit, bind, Program.bind, Program.read, Program.modify, Environment.writeFault_eq hw, h.sends]
    rfl
  have hlog (w : World) (hw : w.stderrClosed = false) : logRequest env w = (.returned (), w) := by
    simp only [logRequest, bind, Program.bind, Program.read, Environment.lineFault_eq hw, h.logs]
    rfl
  unfold APIHandler.plain sendResponse sendHeader bufferLine endHeaders writeBody plainReply Environment.headed
  cases env.http09 with
  | true =>
    simp only [bind, Program.bind, hlog, htransmit, pure, Program.pure, World.start, if_true]
  | false =>
    simp only [bind, Program.bind, hlog, htransmit, pure, World.start, if_false, Program.modify, Program.read,
      Bool.false_eq_true]
    rfl

theorem session_serving (configFile : Str) (config : Value) (files : Files) (xs : List Exchange)
    (hmuscle : ∀ x ∈ xs, x.MuscleKeeps) :
    let s := Run.final next (.serving configFile config true, files) xs
    Session configFile config files xs s ∧
      ∀ probe : Exchange, probe.env.Connected → probe.request.method = .get →
        let sent := (APIHandler.serve probe.env probe.fuel probe.request (World.start s.1 s.2)).2.trace
        (probe.request.path = "/healthz" → sent = plainReply probe.env .ok "ok\n") ∧
        (probe.request.path = "/readyz" → sent = if readiness xs then plainReply probe.env .ok "ready\n"
          else plainReply probe.env .serviceUnavailable "not-ready\n") := by
  intro s
  have hs := session_final configFile config files xs hmuscle
  refine ⟨hs, fun probe hconnected hget => ?_⟩
  obtain ⟨config', hserver, -⟩ := hs.serves
  change s.1 = _ at hserver
  dsimp only
  rw [hserver, APIHandler.serve, hget]
  dsimp only
  constructor
  · intro hpath
    rw [APIHandler.doGET, if_pos hpath]
    exact trace_plain hconnected _ _ _ _
  · intro hpath
    rw [APIHandler.doGET, if_neg (by rw [hpath]; decide), if_pos hpath]
    refine (trace_plain hconnected _ _ _ _).trans ?_
    cases readiness xs <;> rfl

def drained : List Exchange :=
  [⟨Environment.idle, 0, .bare .post "/system/drain"⟩,
    ⟨{ Environment.idle with authorizeBearer := fun _ _ => ⟨false, "denied"⟩ }, 0, .bare .post "/system/undrain"⟩]

theorem session_serving_drained :
    let s := Run.final next (.serving (str "cfg") (.dict []) true, fun _ => none) drained
    Session (str "cfg") (.dict []) (fun _ => none) drained s ∧
      (APIHandler.serve Environment.idle 0 (.bare .get "/readyz") (World.start s.1 s.2)).2.trace =
        plainReply Environment.idle .serviceUnavailable "not-ready\n" := by
  have hmuscle : ∀ x ∈ drained, x.MuscleKeeps := by
    intro x hx
    unfold drained at hx
    rcases List.mem_pair.mp hx with rfl | rfl <;> exact fun _ _ => ⟨rfl, rfl⟩
  have h := session_serving (str "cfg") (.dict []) (fun _ => none) drained hmuscle
  exact ⟨h.1, (h.2 ⟨Environment.idle, 0, .bare .get "/readyz"⟩ ⟨fun _ => rfl, rfl⟩ rfl).2 rfl⟩

section restart

variable {depth : ℕ} {configFile : Str} {config : Value} {ready : Bool} {files : Files} {x : Exchange}

def Restarts (depth : ℕ) (configFile : Str) (files : Files) (config : Value) : Prop :=
  ∀ (env : Environment) (server : Server), env.depth = depth → (∀ step, env.fileFault step = none) →
    (TrinityKernel.init env configFile (World.start server files)).1 =
      .returned { configFile, config, ready := true, apiServer := false }

theorem jsonLoad_eq {env : Environment} (h : env.depth = depth) (content : List UInt8) :
    TrinityKernel.jsonLoad env content = TrinityKernel.jsonLoad { Environment.idle with depth } content := by
  unfold TrinityKernel.jsonLoad
  rw [h]

theorem guardStep_of_no_fault {env : Environment} (h : ∀ step, env.fileFault step = none) (step : FileStep) :
    TrinityKernel.guardStep env step = pure () := by
  unfold TrinityKernel.guardStep
  rw [h]

theorem openRead_of_no_fault {env : Environment} (h : ∀ step, env.fileFault step = none) (path : Str) (w : World) :
    TrinityKernel.openRead env (.str path) w =
      ((w.files path).elim (.raised (.osError "No such file or directory")) .returned, w) := by
  have hclose : TrinityKernel.closeFile env (.str path) w = (.returned (), w) := by
    simp [TrinityKernel.closeFile, TrinityKernel.descriptorOf, Program.modify]
  have hguard (step : FileStep) : TrinityKernel.guardStep env step w = (.returned (), w) := by
    rw [guardStep_of_no_fault h]
    rfl
  unfold TrinityKernel.openRead
  refine (bind_of_returned (hguard _)).trans ((bind_of_returned rfl).trans ?_)
  cases hpath : w.files path with
  | none =>
    rw [TrinityKernel.openFile, hpath]
    rfl
  | some content =>
    rw [TrinityKernel.openFile, hpath]
    exact (bind_of_returned rfl).trans ((bind_of_returned hclose).trans (bind_of_returned (hguard _)))

theorem init_eq {env : Environment} (hfault : ∀ step, env.fileFault step = none) (server : Server) :
    (TrinityKernel.init env configFile (World.start server files)).1 =
      match files configFile with
      | none => .raised (.osError "No such file or directory")
      | some content =>
        match TrinityKernel.jsonLoad env content with
        | .error e => .raised e
        | .ok config => .returned { configFile, config, ready := true, apiServer := false } := by
  have hread : TrinityKernel.openRead env (.str configFile) (World.start server files) =
      ((files configFile).elim _ _, _) := openRead_of_no_fault hfault configFile (World.start server files)
  unfold TrinityKernel.init TrinityKernel.loadConfig
  simp only [bind, Program.bind, hread]
  cases files configFile with
  | none => rfl
  | some content =>
    dsimp only [Option.elim_some]
    cases TrinityKernel.jsonLoad env content <;> rfl

theorem restarts_iff : Restarts depth configFile files config ↔ ∃ content, files configFile = some content ∧
    TrinityKernel.jsonLoad { Environment.idle with depth } content = .ok config := by
  constructor
  · intro h
    have h := h { Environment.idle with depth } ⟨none, none⟩ rfl fun _ => rfl
    rw [init_eq fun _ => rfl] at h
    split at h
    · cases h
    next content hfile =>
      split at h
      · cases h
      next v hload =>
        cases h
        exact ⟨content, hfile, hload⟩
  · rintro ⟨content, hfile, hload⟩ env server hdepth hfault
    rw [init_eq hfault, hfile]
    dsimp only
    rw [jsonLoad_eq hdepth, hload]

def Exchange.ReloadsOwn (configFile : Str) (x : Exchange) : Prop :=
  x.Reloads → ∀ configPath, (APIHandler.body x.env x.request).get "config_path" = .ok configPath →
    configPath.truthy = true → configPath = .str configFile

theorem Exchange.Leaves.restarts {server : Server} {files' : Files} (hown : x.ReloadsOwn configFile)
    (hf : RepresentsFloats x.env.floatRepr) (hdepth : x.env.depth = depth) (hrestarts : Restarts depth configFile files config)
    (h : x.Leaves configFile config ready files server files') :
    server = .serving configFile config (x.readiness ready) ∧ Restarts depth configFile files' config := by
  cases h with
  | kept => exact ⟨rfl, hrestarts⟩
  | @reloaded configPath _ w t hreloads hpath hup heffect =>
    obtain ⟨hserver, hfiles⟩ := hup
    rw [hreloads.readiness]
    have hfile : TrinityKernel.cfgFile ⟨configFile, config, ready, true⟩ configPath = .str configFile := by
      unfold TrinityKernel.cfgFile
      split
      · next htruthy => exact hown hreloads configPath hpath htruthy
      · rfl
    rw [hfile] at heffect
    cases heffect with
    | refused hrefused =>
      refine ⟨hrefused.server.trans hserver, ?_⟩
      rw [restarts_iff, hrefused.files configFile (TrinityKernel.ne_temporary configFile), hfiles, ← restarts_iff]
      exact hrestarts
    | @committed _ path v hcommitted =>
      obtain rfl := Value.str.inj hcommitted.commits.isPath
      obtain ⟨content, hcontent, hload⟩ := restarts_iff.mp hrestarts
      obtain ⟨before, hbefore, hv⟩ := hcommitted.commits.parsed
      rw [hfiles, hcontent] at hbefore
      obtain rfl := Option.some.inj hbefore
      rw [jsonLoad_eq hdepth, hload] at hv
      obtain rfl := Except.ok.inj hv
      obtain ⟨after, hafter, hread⟩ := hcommitted.jsonLoad_written hf
      refine ⟨?_, restarts_iff.mpr ⟨after, hafter, ?_⟩⟩
      · rw [hcommitted.server, hserver]
        rfl
      · rw [← jsonLoad_eq hdepth]
        exact hread

theorem restart_agrees (configFile : Str) (config : Value) (files : Files) (depth : ℕ) (xs : List Exchange)
    (hmuscle : ∀ x ∈ xs, x.MuscleKeeps) (hown : ∀ x ∈ xs, x.ReloadsOwn configFile)
    (hf : ∀ x ∈ xs, RepresentsFloats x.env.floatRepr) (hdepth : ∀ x ∈ xs, x.env.depth = depth)
    (hrestarts : Restarts depth configFile files config) :
    let s := Run.final next (.serving configFile config true, files) xs
    s.1 = .serving configFile config (readiness xs) ∧ Restarts depth configFile s.2 config := by
  induction xs using List.reverseRecOn with
  | nil => exact ⟨rfl, hrestarts⟩
  | append_singleton xs x ih =>
    rw [List.forall_mem_append, List.forall_mem_singleton] at hmuscle hown hf hdepth
    obtain ⟨hserver, hfiles⟩ := ih hmuscle.1 hown.1 hf.1 hdepth.1
    dsimp only
    rw [Run.final_concat]
    generalize Run.final next (.serving configFile config true, files) xs = s at hserver hfiles ⊢
    obtain ⟨server, files'⟩ := s
    obtain rfl : server = _ := hserver
    rw [readiness_concat]
    exact (leaves_next _ _ _ _ hmuscle.2).restarts hown.2 hf.2 hdepth.2 hfiles

noncomputable def reloaded : List Exchange :=
  [⟨{ Environment.idle with
      floatRepr := literalOf
      fileFault := fun step => if step = .replace then some (.osError "busy") else none }, 0,
      .bare .post "/system/reload"⟩,
    ⟨{ Environment.idle with floatRepr := literalOf }, 0, .bare .post "/system/reload"⟩]

theorem restart_agrees_reloaded :
    let config := .dict [(str "a", .list [.int 1, .text "b"])]
    let files := fun path => if path = str "cfg" then some (TrinityKernel.ascii TrinityKernel.Sample.object) else none
    let s := Run.final next (.serving (str "cfg") config true, files) reloaded
    s.1 = .serving (str "cfg") config (readiness reloaded) ∧ Restarts 100 (str "cfg") s.2 config := by
  have hboth {P : Exchange → Prop} (h : ∀ fault, P ⟨{ Environment.idle with floatRepr := literalOf, fileFault := fault },
      0, .bare .post "/system/reload"⟩) : ∀ x ∈ reloaded, P x := by
    intro x hx
    unfold reloaded at hx
    rcases List.mem_pair.mp hx with rfl | rfl
    · exact h _
    · exact h _
  apply restart_agrees
  · exact hboth fun _ _ _ => ⟨rfl, rfl⟩
  · apply hboth
    intro fault _ configPath hpath htruthy
    obtain rfl : .none = configPath := Except.ok.inj hpath
    cases htruthy
  · exact hboth fun _ => representsFloats_literalOf
  · exact hboth fun _ => rfl
  · exact restarts_iff.mpr ⟨_, rfl, rfl⟩

end restart

end TrinityOS.Service
