import TrinityOS.Service.ReplyFormat

namespace TrinityOS.Service

open Program

def Carries (env : Environment) (decode : List UInt8 → Option (List Char)) (r : Request)
    (v : Value) : Prop :=
  0 < Events.bodyLength r ∧ ∃ raw text, r.read (Events.bodyLength r) = .ok raw ∧
    decode raw = some text ∧ loads env.depth text = .ok v

def BodiesRead (env : Environment) (r : Request) : Prop :=
  (ReadsEventsBody env r → ∀ v, Carries env (some ∘ decodeReplace) r v → v.isDict = true) ∧
    (ReadsSystemBody env r → ∀ v, Carries env decodeStrict r v → v.isDict = true)

def BodiesUsed (env : Environment) (server : Server) (r : Request) : Prop :=
  (ReadsEventsBody env r → ∀ v, Carries env (some ∘ decodeReplace) r v → v.isDict = true) ∧
    (UsesSystemBody env server r → ∀ v, Carries env decodeStrict r v → v.isDict = true)

def ClosesItself (env : Environment) (server : Server) (r : Request) : Prop :=
  UsesSystemBody env server r ∧ ∃ kernel body configPath, server.kernel = some kernel ∧
    Carries env decodeStrict r body ∧ body.get "config_path" = .ok configPath ∧
    TrinityKernel.Closes env (kernel.cfgFile configPath)

structure Answerable (env : Environment) (server : Server) (r : Request) : Prop where
  version : env.http09 = false
  arrives : ReadsEventsBody env r ∨ ReadsSystemBody env r → r.stalls = false
  remains : ¬ClosesItself env server r

section bodies

variable {env : Environment} {r : Request} {decode : List UInt8 → Option (List Char)} {v : Value}

theorem loads_braces (depth : ℕ) :
    loads depth "\x7b\x7d".toList = .ok (.dict []) ∨
      loads depth "\x7b\x7d".toList = .error .recursionError := by
  cases depth with
  | zero => exact .inr rfl
  | succ depth => exact .inl rfl

structure Parses (env : Environment) (decode : List UInt8 → Option (List Char)) (r : Request) (body : Value) :
    Prop where
  carried : ∀ v, Carries env decode r v → body = v
  otherwise : (∀ v, ¬Carries env decode r v) → body = .dict []

theorem Parses.isDict_iff {body : Value} (h : Parses env decode r body) :
    body.isDict = true ↔ ∀ v, Carries env decode r v → v.isDict = true := by
  constructor
  · intro hbody v hv
    rw [← h.carried v hv]
    exact hbody
  · intro hall
    by_cases hcarries : ∃ v, Carries env decode r v
    · obtain ⟨v, hv⟩ := hcarries
      rw [h.carried v hv]
      exact hall v hv
    · rw [h.otherwise (not_exists.mp hcarries)]
      rfl

theorem parses_readBody : Parses env (some ∘ decodeReplace) r (Events.readBody env r) := by
  constructor
  · rintro v ⟨hlength, raw, text, hraw, htext, hv⟩
    obtain rfl := Option.some.inj htext
    have hne : raw ≠ [] := by
      rintro rfl
      cases (loads_nil env.depth).symm.trans hv
    unfold Events.readBody
    rw [if_neg (by omega), hraw]
    dsimp only
    rw [if_neg hne, hv]
  · intro hnone
    unfold Events.readBody
    split
    · rfl
    · split
      · rfl
      · next hlength raw hraw =>
        split
        · rfl
        · cases hv : loads env.depth (decodeReplace raw) with
          | ok v => exact absurd ⟨by omega, raw, _, hraw, rfl, hv⟩ (hnone v)
          | error e => rfl

theorem body_eq : APIHandler.body env r =
    if Events.bodyLength r ≤ 0 then .dict []
    else
      match r.read (Events.bodyLength r) with
      | .error _ => .dict []
      | .ok raw =>
        match decodeStrict raw with
        | none | some [] => .dict []
        | some text =>
          match loads env.depth text with
          | .ok v => v
          | .error _ => .dict [] := by
  have hbraces : (match loads env.depth "\x7b\x7d".toList with
      | .ok v => v
      | .error _ => .dict []) = .dict [] := by
    rcases loads_braces env.depth with h | h <;> rw [h]
  unfold APIHandler.body APIHandler.parseBody Events.bodyLength
  cases contentLength r with
  | error e => rfl
  | ok n =>
    by_cases hn : n ≤ 0
    · simp only [bind, Except.bind, if_neg (show ¬n > 0 by omega), if_pos hn]
      exact hbraces
    · simp only [bind, Except.bind, if_pos (show n > 0 by omega), if_neg hn]
      cases r.read n with
      | error e => rfl
      | ok raw =>
        dsimp only
        cases decodeStrict raw with
        | none => rfl
        | some text =>
          cases text with
          | nil => exact hbraces
          | cons c text => rfl

theorem parses_body : Parses env decodeStrict r (APIHandler.body env r) := by
  rw [body_eq]
  constructor
  · rintro v ⟨hlength, raw, text, hraw, htext, hv⟩
    rw [if_neg (by omega), hraw]
    dsimp only
    rw [htext]
    cases text with
    | nil => cases (loads_nil env.depth).symm.trans hv
    | cons c text =>
      dsimp only
      rw [hv]
  · intro hnone
    split
    · rfl
    · split
      · rfl
      · next hlength raw hraw =>
        cases htext : decodeStrict raw with
        | none => rfl
        | some text =>
          cases text with
          | nil => rfl
          | cons c text =>
            dsimp only
            cases hv : loads env.depth (c :: text) with
            | ok v => exact absurd ⟨by omega, raw, _, hraw, htext, hv⟩ (hnone v)
            | error e => rfl

/-- Without a body the reload reads the kernel's own file, which is named by a path. -/
theorem reloadCloses_iff {server : Server} : ReloadCloses env server r ↔
    ∃ kernel body configPath, server.kernel = some kernel ∧ Carries env decodeStrict r body ∧
      body.get "config_path" = .ok configPath ∧ TrinityKernel.Closes env (kernel.cfgFile configPath) := by
  constructor
  · rintro ⟨kernel, configPath, hkernel, hget, hcloses⟩
    by_cases hcarries : ∃ v, Carries env decodeStrict r v
    · obtain ⟨v, hv⟩ := hcarries
      rw [parses_body.carried v hv] at hget
      exact ⟨kernel, v, configPath, hkernel, hv, hget, hcloses⟩
    · rw [parses_body.otherwise (not_exists.mp hcarries)] at hget
      obtain rfl : .none = configPath := Except.ok.inj hget
      obtain ⟨n, hn, -⟩ := hcloses
      cases hn
  · rintro ⟨kernel, body, configPath, hkernel, hv, hget, hcloses⟩
    rw [← parses_body.carried body hv] at hget
    exact ⟨kernel, configPath, hkernel, hget, hcloses⟩

end bodies

abbrev NeverReturns {α : Type} (I : World → Prop) (p : Handler α) : Prop :=
  Triple I p (fun _ _ => False) (fun _ _ => True) fun _ => True

section failures

variable {α β : Type} {I : World → Prop} {env : Environment} {r : Request} {server : Server}

theorem NeverReturns.bind {p : Handler α} (h : NeverReturns I p) (f : α → Handler β) : NeverReturns I (p >>= f) :=
  Triple.bind h fun _ _ hw => hw.elim

theorem neverReturns_get {body : Value} (hbody : body.isDict = false) (key : String) (default : Value)
    (f : Value → Handler α) : NeverReturns I (ofExcept (body.get key default) >>= f) := by
  apply NeverReturns.bind
  cases body with
  | dict items => cases hbody
  | _ => exact triple_raise fun _ _ => trivial

open TrinityKernel (Unreachable)

theorem neverReturns_json {obj : Value} {code : HTTPStatus} : NeverReturns Unreachable (APIHandler.json env obj code) := by
  let Closed (w : World) : Prop := w.connectionClosed = true
  have hbuffer (line : HeadLine) : Triple Closed (bufferLine env line) (fun _ => Closed) (fun _ _ => True)
      fun _ => True :=
    Triple.ite (fun _ => triple_pure fun _ h => h) fun _ => triple_modify fun _ h => h
  have htransmit (a : Action) : Triple Closed (transmit env a) (fun _ _ => False) (fun e _ => e = badDescriptor)
      fun _ => True := by
    have hfault (w : World) (hw : Closed w) : env.writeFault w = some badDescriptor := if_pos hw
    refine triple_transmit (fun w hw h => ?_) fun w e hw h => ?_
    · cases (hfault w hw).symm.trans h
    · exact Option.some.inj (h.symm.trans (hfault w hw))
  apply Triple.bind (R := fun _ => Unreachable)
  · exact triple_ofExcept (fun _ _ _ h => h) fun _ _ _ _ => trivial
  intro data
  apply Triple.bind (R := fun _ => Closed)
  · refine (triple_logRequest (fun w hw h => ?_) fun _ _ _ _ => trivial).bind fun _ => hbuffer _
    refine hw.resolve_right fun hstderr => ?_
    cases (show env.lineFault w = some badDescriptor from if_pos hstderr).symm.trans h
  intro _
  refine (hbuffer _).bind fun _ => (hbuffer _).bind fun _ => ?_
  apply Triple.bind (R := fun _ => Closed)
  · refine Triple.ite (fun _ => triple_pure fun _ h => h) fun _ => triple_read_bind fun w hw => ?_
    refine Triple.bind (R := fun _ _ => False) ?_ fun _ _ h => h.elim
    exact ((htransmit _).at_state hw).mono (fun _ h => h) (fun _ _ h => h) (fun _ _ _ => trivial) fun _ h => h
  intro _
  apply Triple.bind (R := fun sent _ => sent = .error badDescriptor)
  · apply Triple.attempt
    exact (htransmit _).mono (fun _ h => h) (fun _ _ h => h.elim) (fun _ _ h => congrArg _ h) fun _ h => h
  intro sent
  split
  · rintro _ ⟨⟩
  · rintro _ ⟨⟩
  · exact triple_raise fun _ _ => trivial

theorem neverReturns_kernelReply (res : Value) : NeverReturns Unreachable (APIHandler.kernelReply env res) := by
  apply Triple.bind (R := fun _ => Unreachable)
  · exact triple_ofExcept (fun _ _ _ h => h) fun _ _ _ _ => trivial
  · exact fun success => neverReturns_json.bind _

theorem triple_handleReload_closes {kernel : TrinityKernel} {actor : String} {configPath : Value}
    (h : TrinityKernel.Closes env (kernel.cfgFile configPath)) :
    Triple I (kernel.handleReload env actor configPath) (fun _ => Unreachable) (fun _ _ => True) fun _ => True := by
  have hemit {a : Action} : Triple Unreachable (emit a) (fun _ => Unreachable) (fun _ _ => True) fun _ => True :=
    triple_modify fun _ h => h
  unfold TrinityKernel.handleReload
  refine (triple_modify (R := fun _ _ => True) fun _ _ => trivial).bind fun _ => ?_
  refine (triple_modify (R := fun _ _ => True) fun _ _ => trivial).bind fun _ => ?_
  apply Triple.bind (R := fun _ => Unreachable)
  · apply Triple.attempt
    exact (TrinityKernel.triple_reload_closes h).mono (fun _ h => h) (fun _ _ h => h) (fun _ _ h => h) fun _ h => h.elim
  · intro result
    cases result <;> exact hemit.bind fun _ => triple_pure fun _ h => h

variable (hm : ¬APIHandler.IsMusclePath r.path)

include hm

theorem neverReturns_doPOST_events (h : ReadsEventsBody env r)
    (hfails : r.stalls = true ∨ (Events.readBody env r).isDict = false) :
    NeverReturns (Stage [] [] []) (APIHandler.doPOST env r) := by
  have hbody (hread : r.stalls = false) : (Events.readBody env r).isDict = false :=
    hfails.resolve_left (by simp [hread])
  rw [doPOST_events hm h.2.1]
  apply NeverReturns.bind
  apply triple_handleEventsPOST_reads h
  · exact fun _ _ _ => trivial
  · exact fun hread sub => neverReturns_get (hbody hread) _ _ _
  · exact fun hread => neverReturns_get (hbody hread) _ _ _

theorem neverReturns_doPOST_system (h : ReadsSystemBody env r)
    (hfails : r.stalls = true ∨ UsesSystemBody env server r ∧
      ((APIHandler.body env r).isDict = false ∨ ReloadCloses env server r)) :
    NeverReturns (fun w => w.server = server ∧ Stage [] [] [] w) (APIHandler.doPOST env r) := by
  rw [doPOST_system hm fun hevents => not_readsSystemBody env hevents h]
  apply NeverReturns.bind
  apply triple_system_reads h
  · exact fun _ _ _ => trivial
  · intro hread hnone
    obtain ⟨⟨-, -, hkernel⟩, -⟩ := hfails.resolve_left (by simp [hread])
    rw [hnone] at hkernel
    cases hkernel
  · intro hread kernel sub hkernel
    obtain ⟨⟨-, hpath, -⟩, hfails⟩ := hfails.resolve_left (by simp [hread])
    unfold APIHandler.systemOp
    rw [if_pos hpath]
    rcases hfails with hbody | ⟨kernel', configPath, hkernel', hget, hcloses⟩
    · exact neverReturns_get hbody _ _ _
    · obtain rfl := Option.some.inj (hkernel.symm.trans hkernel')
      rw [hget, ofExcept_ok_bind]
      exact (triple_handleReload_closes hcloses).bind neverReturns_kernelReply

end failures

section exact

variable {env : Environment} {r : Request} {server : Server} (fuel : ℕ) (files : Files)

theorem not_oneResponse_of_neverReturns (hmethod : r.method = .post)
    (h : NeverReturns (fun w => w.server = server ∧ Stage [] [] [] w) (APIHandler.doPOST env r)) :
    ¬OneResponse r (APIHandler.serve env fuel r (World.start server files)) := by
  have hrun := h (World.start server files) ⟨rfl, rfl, rfl, rfl, rfl, rfl⟩
  have hserve : APIHandler.serve env fuel r = APIHandler.doPOST env r := by
    unfold APIHandler.serve
    rw [hmethod]
  rw [hserve]
  generalize APIHandler.doPOST env r (World.start server files) = run at hrun ⊢
  obtain ⟨_ | _ | _, t⟩ := run
  · exact hrun.elim
  · rintro ⟨-, hout | ⟨hout, -⟩⟩ <;> cases hout
  · rintro ⟨-, hout | ⟨-, hget, -⟩⟩
    · cases hout
    · cases hmethod.symm.trans hget

theorem Reply.headless {l : List Action} (hversion : env.http09 = true) (h : Reply env r l) :
    ∀ a ∈ l, a.head? = none := by
  have hheaded (lines : List HeadLine) : env.headed lines = [] := if_pos hversion
  cases h with
  | json | text | page =>
    intro a ha
    simp only [jsonReply, plainReply, pageReply, hheaded, List.nil_append, List.mem_singleton] at ha
    rw [ha]
    rfl
  | stream =>
    intro a ha
    simp only [streamReply, hheaded, List.nil_append, List.mem_flatMap, List.mem_cons, List.not_mem_nil, or_false] at ha
    obtain ⟨blob, -, rfl | rfl⟩ := ha <;> rfl

theorem not_oneResponse_of_http09 (hversion : env.http09 = true) (hm : ¬APIHandler.IsMusclePath r.path) :
    ¬OneResponse r (APIHandler.serve env fuel r (World.start server files)) := by
  rintro ⟨⟨lines, -, hheads⟩, -⟩
  obtain ⟨l, hreply, hprefix, -⟩ := replied_final env fuel server files fun _ => hm
  have hmem : Action.head lines ∈ World.trace (APIHandler.serve env fuel r (World.start server files)).2 := by
    have hhead : lines ∈ World.heads (APIHandler.serve env fuel r (World.start server files)).2 := by
      rw [hheads]
      exact List.mem_singleton_self lines
    obtain ⟨a, ha, hlines⟩ := List.mem_filterMap.mp hhead
    cases a with
    | head lines' =>
      obtain rfl := Option.some.inj hlines
      exact ha
    | _ => cases hlines
  have hsent := hprefix.subset (List.mem_filter.mpr ⟨hmem, rfl⟩)
  cases hreply.headless hversion _ hsent

theorem Answerable.oneResponse (henv : env.Cooperative) (hm : ¬APIHandler.IsMusclePath r.path)
    (h : Answerable env server r) (hused : BodiesUsed env server r) :
    OneResponse r (APIHandler.serve env fuel r (World.start server files)) ∧
      Parsed env r (APIHandler.serve env fuel r (World.start server files)).2.bodies :=
  oneResponse_serve ⟨henv, h.version⟩ hm h.arrives
    (fun huses hcloses => h.remains ⟨huses, reloadCloses_iff.mp hcloses⟩)
    (fun hreads => parses_readBody.isDict_iff.mpr (hused.1 hreads))
    (fun huses => parses_body.isDict_iff.mpr (hused.2 huses)) fuel files

theorem oneResponse_iff (henv : env.Cooperative) (hm : ¬APIHandler.IsMusclePath r.path) :
    OneResponse r (APIHandler.serve env fuel r (World.start server files)) ↔
      Answerable env server r ∧ BodiesUsed env server r := by
  constructor
  · intro hone
    have hversion : env.http09 = false := by
      by_contra hnot
      exact not_oneResponse_of_http09 fuel files (by simpa using hnot) hm hone
    have hevents (h : ReadsEventsBody env r) :
        ¬(r.stalls = true ∨ (Events.readBody env r).isDict = false) := by
      intro hfails
      refine not_oneResponse_of_neverReturns fuel files h.1 ?_ hone
      exact (neverReturns_doPOST_events hm h hfails).strengthen fun _ h => h.2
    have hsystem (h : ReadsSystemBody env r) : ¬(r.stalls = true ∨ UsesSystemBody env server r ∧
        ((APIHandler.body env r).isDict = false ∨ ReloadCloses env server r)) := fun hfails =>
      not_oneResponse_of_neverReturns fuel files h.1 (neverReturns_doPOST_system hm h hfails) hone
    simp only [not_or, not_and, Bool.not_eq_true, Bool.not_eq_false] at hevents hsystem
    refine ⟨⟨hversion, ?_, ?_⟩, ?_, ?_⟩
    · rintro (h | h)
      · exact (hevents h).1
      · exact (hsystem h).1
    · rintro ⟨huses, hcloses⟩
      exact ((hsystem huses.1).2 huses).2 (reloadCloses_iff.mpr hcloses)
    · exact fun h => parses_readBody.isDict_iff.mp (hevents h).2
    · exact fun h => parses_body.isDict_iff.mp ((hsystem h.1).2 h).1
  · rintro ⟨hanswerable, hused⟩
    exact (hanswerable.oneResponse fuel files henv hm hused).1

end exact

theorem one_response_iff (env : Environment) (henv : env.Cooperative) (fuel : ℕ) (r : Request)
    (hm : ¬APIHandler.IsMusclePath r.path) (server : Server) (files : Str → Option (List UInt8)) :
    let run := APIHandler.serve env fuel r (World.start server files)
    (OneResponse r run ∧ (∀ body ∈ run.2.bodies, body.isDict = true) ↔ Answerable env server r ∧ BodiesRead env r) ∧
      (OneResponse r run ↔ Answerable env server r ∧ BodiesUsed env server r) := by
  intro run
  have hiff : OneResponse r run ↔ Answerable env server r ∧ BodiesUsed env server r := oneResponse_iff fuel files henv hm
  have hanswered (hanswerable : Answerable env server r) (hused : BodiesUsed env server r) :
      OneResponse r run ∧ Parsed env r run.2.bodies := hanswerable.oneResponse fuel files henv hm hused
  refine ⟨?_, hiff⟩
  constructor
  · rintro ⟨hone, hbodies⟩
    obtain ⟨hanswerable, hused⟩ := hiff.mp hone
    refine ⟨hanswerable, hused.1, fun hr => parses_body.isDict_iff.mp ?_⟩
    rcases (hanswered hanswerable hused).2 with ⟨he, -⟩ | ⟨-, hp⟩ | ⟨-, hns, -⟩
    · exact absurd hr (not_readsSystemBody env he.2.1)
    · exact hbodies _ (by rw [hp]; exact List.mem_singleton_self _)
    · exact absurd hr hns
  · rintro ⟨hanswerable, hevents, hsystem⟩
    have hall := hanswered hanswerable ⟨hevents, fun huses => hsystem huses.1⟩
    refine ⟨hall.1, fun body hbody => ?_⟩
    rcases hall.2 with ⟨hr, hp⟩ | ⟨hr, hp⟩ | ⟨-, -, hp⟩
    · rw [hp, List.mem_singleton] at hbody
      rw [hbody]
      exact parses_readBody.isDict_iff.mpr (hevents hr)
    · rw [hp, List.mem_singleton] at hbody
      rw [hbody]
      exact parses_body.isDict_iff.mpr (hsystem hr)
    · rw [hp] at hbody
      cases hbody

theorem idle_cooperative : Environment.idle.Cooperative where
  sends _ := rfl
  logs := rfl
  published m msg h := by
    obtain rfl : (⟨.none, .none⟩ : Published) = msg := Except.ok.inj h
    exact ⟨⟨_, rfl⟩, ⟨_, rfl⟩⟩
  delivered topic group subc i msg h hpoll := by
    obtain rfl := Except.ok.inj h
    cases hpoll

def produceRequest (body : List UInt8) : Request where
  method := .post
  path := "/events/produce"
  header name := if name = "Content-Length" then some "2" else none
  read _ := .ok body
  waits _ := false

theorem one_response_iff_empty_object :
    OneResponse (produceRequest [0x7b, 0x7d])
      (APIHandler.serve .idle 0 (produceRequest [0x7b, 0x7d]) (World.start ⟨none, none⟩ fun _ => none)) := by
  have hsystem : ¬UsesSystemBody .idle ⟨none, none⟩ (produceRequest [0x7b, 0x7d]) := by
    rintro ⟨-, hpath, -⟩
    cases (show "/events/produce" ≠ "/system/reload" by decide) hpath
  apply (one_response_iff .idle idle_cooperative 0 _ (by decide) _ _).2.mpr
  refine ⟨⟨rfl, fun _ => rfl, fun h => hsystem h.1⟩, ?_, fun h => absurd h hsystem⟩
  rintro - v ⟨-, raw, text, hraw, htext, hv⟩
  obtain rfl := Except.ok.inj hraw
  obtain rfl := Option.some.inj htext
  obtain rfl : .dict [] = v := Except.ok.inj hv
  rfl

theorem array_body_unanswered :
    let r := produceRequest [0x5b, 0x5d]
    let run := APIHandler.serve .idle 0 r (World.start ⟨none, none⟩ fun _ => none)
    Environment.idle.Cooperative ∧ ¬APIHandler.IsMusclePath r.path ∧
      run.1 = .raised (.attributeError "list" "get") ∧ run.2.heads = [] ∧
      ¬(OneResponse r run ∧ ∀ body ∈ run.2.bodies, body.isDict = true) := by
  refine ⟨idle_cooperative, by decide, rfl, rfl, ?_⟩
  rintro ⟨⟨⟨lines, -, hheads⟩, -⟩, -⟩
  cases hheads

end TrinityOS.Service
