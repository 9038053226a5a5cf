import TrinityOS.EventStream
import TrinityOS.Service.APIHandler
import TrinityOS.Service.JsonText
import Mathlib.Data.List.DropRight

namespace TrinityOS.Service

open Program

def Action.written? : Action → Option (List Char)
  | .write data => some data
  | _ => none

def Action.isPoll : Action → Bool
  | .poll _ => true
  | _ => false

namespace World

def polls (w : World) : ℕ := w.trace.countP Action.isPoll

def written (w : World) : List Char :=
  ((w.trace.rtakeWhile fun a => a.head?.isNone).filterMap Action.written?).flatten

end World

def UnlessBroken (env : Environment) (I : World → Prop) (w : World) : Prop :=
  (∃ n < w.sends, env.sendFault n ≠ none) ∨ I w

namespace Events

def blob? (env : Environment) (subc : Subscription) (i : ℕ) : Option (List Char) :=
  match subc.poll i with
  | .ok (some msg) => (dumps env.floatRepr (messageFields msg)).toOption
  | _ => none

def blobs (env : Environment) (subc : Subscription) (polls : ℕ) : List (List Char) :=
  (List.range polls).filterMap (blob? env subc)

def frames (blobs : List (List Char)) : List Char := blobs.flatMap (EventStream.frame "message".toList)

structure Opens (env : Environment) (r : Request) (subc : Subscription) : Prop where
  method : r.method = .get
  path : IsEventsPath r.path
  endpoint : normPath r.path = "/events/consume"
  authorized : (env.authorizeBearer (r.header "Authorization") ["events:consume"]).ok = true
  topic : (r.header "X-Topic").getD "" ≠ ""
  subscribed : env.subscribe ((r.header "X-Topic").getD "") ((r.header "X-Group").getD
    (env.authorizeBearer (r.header "Authorization") ["events:consume"]).sub) = .ok subc

/-- Why the loop makes no further poll as long as no write fails: its rounds or its time are used
up, or the last poll has raised, or has delivered a message that has no JSON text. -/
inductive Stops (env : Environment) (subc : Subscription) (timeout : Float) (fuel : ℕ) : ℕ → Prop
  | cut : Stops env subc timeout fuel fuel
  | late {polls : ℕ} (h : ¬env.time (polls + 1) - env.time 0 < timeout) : Stops env subc timeout fuel polls
  | failed {i : ℕ} {e : PyError} (h : subc.poll i = .error e) : Stops env subc timeout fuel (i + 1)
  | unsendable {i : ℕ} {msg : Message} (h : subc.poll i = .ok (some msg)) (hblob : blob? env subc i = none) :
      Stops env subc timeout fuel (i + 1)

structure Streamed (polls : ℕ) (text : List Char) (w : World) : Prop where
  polls : w.polls = polls
  written : w.written = text
  connection : w.connectionClosed = false
  stderr : w.stderrClosed = false

def Framed (env : Environment) (subc : Subscription) (polls : ℕ) : World → Prop :=
  Streamed polls (frames (blobs env subc polls))

/-- The loop has been left or cut off, or the request log has kept it from being entered. -/
def Finished (env : Environment) (subc : Subscription) (timeout : Float) (fuel : ℕ) (w : World) : Prop :=
  ∃ k, Framed env subc k w ∧ (env.logFault = none → Stops env subc timeout fuel k)

variable {env : Environment} {subc : Subscription} {w : World} {i : ℕ} {text : List Char} {a : Action}

theorem Streamed.sent (h : Streamed i text w) : Streamed i text { w with sends := w.sends + 1 } :=
  ⟨h.polls, h.written, h.connection, h.stderr⟩

theorem Streamed.append (h : Streamed i text w) (hhead : a.head? = none) :
    Streamed (i + if a.isPoll then 1 else 0) (text ++ a.written?.getD []) { w with trace := w.trace ++ [a] } := by
  refine ⟨?_, ?_, h.connection, h.stderr⟩
  · rw [World.polls, List.countP_append, List.countP_singleton, ← h.polls]
    rfl
  · rw [← h.written, World.written, List.rtakeWhile_concat_pos _ _ _ (by simp [hhead]), List.filterMap_append,
      List.flatten_append]
    cases hwritten : a.written? <;> simp [World.written, hwritten]

theorem Streamed.head (h : Streamed i text w) (lines : List HeadLine) :
    Streamed i [] { w with trace := w.trace ++ [.head lines] } := by
  refine ⟨?_, ?_, h.connection, h.stderr⟩
  · rw [World.polls, List.countP_append, List.countP_singleton, ← h.polls]
    rfl
  · rw [World.written, List.rtakeWhile_concat_neg _ _ _ (by simp [Action.head?])]
    rfl

theorem blobs_succ : blobs env subc (i + 1) = blobs env subc i ++ (blob? env subc i).toList := by
  rw [blobs, List.range_succ, List.filterMap_append, ← blobs]
  cases h : blob? env subc i <;> simp [h]

theorem frames_concat (blobs : List (List Char)) (blob : List Char) :
    frames (blobs ++ [blob]) =
      frames blobs ++ "event: message\n".toList ++ ("data: ".toList ++ blob ++ "\n\n".toList) := by
  have hframe : EventStream.frame "message".toList blob =
      "event: ".toList ++ "message".toList ++ "\ndata: ".toList ++ blob ++ "\n\n".toList := rfl
  rw [frames, List.flatMap_append, ← frames, List.flatMap_singleton, hframe]
  simp only [String.reduceToList, List.cons_append, List.nil_append, List.append_assoc]

end Events

section steps

variable {env : Environment} {I J : World → Prop} {E : PyError → World → Prop} {U : World → Prop} {a : Action}

theorem UnlessBroken.mono {w : World} (h : UnlessBroken env I w) (hIJ : ∀ w, I w → J w) : UnlessBroken env J w :=
  h.imp_right (hIJ w)

theorem triple_transmit_unlessBroken (hopen : ∀ w, I w → w.connectionClosed = false)
    (h : ∀ w, I w → J { w with sends := w.sends + 1, trace := w.trace ++ [a] }) :
    Triple (UnlessBroken env I) (transmit env a) (fun _ => UnlessBroken env J)
      (fun _ => UnlessBroken env fun _ => False) U := by
  refine triple_transmit (fun w hw _ => ?_) fun w e hw hfault => .inl ?_
  · rcases hw with ⟨n, hn, hbad⟩ | hw
    · exact .inl ⟨n, Nat.lt_succ_of_lt hn, hbad⟩
    · exact .inr (h w hw)
  · rcases hw with ⟨n, hn, hbad⟩ | hw
    · exact ⟨n, Nat.lt_succ_of_lt hn, hbad⟩
    · rw [Environment.writeFault_eq (hopen w hw)] at hfault
      exact ⟨w.sends, Nat.lt_succ_self _, by simp [hfault]⟩

end steps

section stream

open Events

variable {env : Environment} {subc : Subscription} {E : PyError → World → Prop} {U : World → Prop} {i : ℕ}
  {text : List Char} {timeout : Float} {fuel : ℕ}

theorem triple_emit_streamed {a : Action} (hhead : a.head? = none) :
    Triple (UnlessBroken env (Streamed i text)) (emit a)
      (fun _ => UnlessBroken env (Streamed (i + if a.isPoll then 1 else 0) (text ++ a.written?.getD []))) E U :=
  triple_modify fun _ h => h.imp_right fun h => h.append hhead

theorem triple_writeBody_streamed (data : List Char) :
    Triple (UnlessBroken env (Streamed i text)) (writeBody env data)
      (fun _ => UnlessBroken env (Streamed i (text ++ data))) (fun _ => UnlessBroken env fun _ => False) U :=
  triple_transmit_unlessBroken (fun _ h => h.connection) fun _ h =>
    Streamed.append (a := .write data) h.sent rfl

theorem triple_writeMessage_attempt {msg : Message} (hpoll : subc.poll i = .ok (some msg)) :
    Triple (UnlessBroken env (Streamed (i + 1) (frames (blobs env subc i)))) (writeMessage env msg).attempt
      (fun written => UnlessBroken env fun w =>
        Framed env subc (i + 1) w ∧ (written.isOk = false → blob? env subc i = none)) E U := by
  apply Triple.attempt
  unfold Framed writeMessage
  have hblob? : blob? env subc i = (dumps env.floatRepr (messageFields msg)).toOption := by rw [blob?, hpoll]
  rw [blobs_succ, hblob?]
  cases hblob : dumps env.floatRepr (messageFields msg) with
  | error e =>
    apply Triple.bind (R := fun _ _ => False)
    · refine triple_raise fun w hw => hw.mono fun w hw => ⟨?_, fun _ => rfl⟩
      simpa [Except.toOption] using hw
    · rintro _ _ ⟨⟩
  | ok blob =>
    rw [ofExcept_ok_bind]
    have hframes : frames (blobs env subc i ++ (some blob).toList) = _ := frames_concat (blobs env subc i) blob
    have hbroken (w : World) (h : UnlessBroken env (fun _ => False) w) {I : World → Prop} : UnlessBroken env I w :=
      h.mono fun _ h => h.elim
    simp only [Except.toOption, hframes]
    apply Triple.bind
    · exact (triple_writeBody_streamed _).mono (fun _ h => h) (fun _ _ h => h) (fun _ w h => hbroken w h) fun _ h => h
    · intro _
      apply (triple_writeBody_streamed _).mono
      · exact fun _ h => h
      · exact fun _ w h => h.mono fun w h => ⟨h, by simp [Except.isOk, Except.toBool]⟩
      · exact fun _ w h => hbroken w h
      · exact fun _ h => h

theorem triple_streamRound_framed (timeout : Float) (fuel i : ℕ) :
    Triple (UnlessBroken env (Framed env subc i)) (streamRound env subc timeout i)
      (fun again => UnlessBroken env (if again then Framed env subc (i + 1) else Finished env subc timeout fuel)) E U := by
  refine Triple.ite (fun _ => ?_) fun hlate => triple_pure fun w h => h.mono fun w h => ⟨i, h, fun _ => .late hlate⟩
  apply Triple.bind (R := fun _ => UnlessBroken env (Streamed (i + 1) (frames (blobs env subc i))))
  · refine (triple_emit_streamed rfl).weaken fun _ w h => ?_
    simpa [Action.isPoll, Action.written?] using h
  intro _
  -- a poll without a message adds no text
  have hskip (hnone : blob? env subc i = none) (w : World) (h : Streamed (i + 1) (frames (blobs env subc i)) w) :
      Framed env subc (i + 1) w := by
    rw [Framed, blobs_succ, hnone]
    simpa using h
  cases hpoll : subc.poll i with
  | error e =>
    refine triple_pure fun w h => h.mono fun w h => ⟨i + 1, hskip ?_ w h, fun _ => .failed hpoll⟩
    rw [blob?, hpoll]
  | ok delivered =>
    cases delivered with
    | none => exact triple_pure fun w h => h.mono (hskip (by rw [blob?, hpoll]))
    | some msg =>
      refine (triple_writeMessage_attempt hpoll).bind fun written => ?_
      rcases written with _ | ⟨⟩
      · exact triple_pure fun w h => h.mono fun w h => ⟨i + 1, h.1, fun _ => .unsendable hpoll (h.2 rfl)⟩
      · exact triple_pure fun w h => h.mono fun w h => h.1

theorem triple_cleanup_framed :
    Triple (UnlessBroken env (Finished env subc timeout fuel)) (cleanup subc)
      (fun _ => UnlessBroken env (Finished env subc timeout fuel)) E U := by
  have hemit (a : Action) (hhead : a.head? = none) (hpoll : a.isPoll = false) (hwritten : a.written? = none) :
      Triple (UnlessBroken env (Finished env subc timeout fuel)) (emit a)
        (fun _ => UnlessBroken env (Finished env subc timeout fuel)) E U := by
    refine triple_modify fun w h => h.imp_right fun h => ?_
    obtain ⟨k, hframed, hstops⟩ := h
    refine ⟨k, ?_, hstops⟩
    simpa [Framed, hpoll, hwritten] using hframed.append hhead
  unfold cleanup
  split
  · exact hemit _ rfl rfl rfl
  · exact hemit _ rfl rfl rfl
  · exact triple_pure fun _ h => h

theorem triple_endHeaders_framed :
    Triple (UnlessBroken env (Framed env subc 0)) (endHeaders env)
      (fun _ => UnlessBroken env (Framed env subc 0)) (fun _ => UnlessBroken env fun _ => False) U := by
  refine Triple.ite (fun _ => triple_pure fun _ h => h) fun _ => triple_read_bind fun w hw => ?_
  apply Triple.bind (R := fun _ => UnlessBroken env (Framed env subc 0))
  · apply (triple_transmit_unlessBroken (I := Framed env subc 0) (fun _ h => h.connection) ?_).at_state hw
    exact fun _ h => h.sent.head _
  · exact fun _ => triple_modify fun w h => h.imp_right fun h => ⟨h.polls, h.written, h.connection, h.stderr⟩

theorem triple_consume_framed (fuel : ℕ) (timeout : Float) :
    Triple (UnlessBroken env (Framed env subc 0)) (consume env fuel subc timeout)
      (fun handled w => handled = true ∧ UnlessBroken env (Finished env subc timeout fuel) w)
      (fun _ => UnlessBroken env (Finished env subc timeout fuel)) (UnlessBroken env (Finished env subc timeout fuel)) := by
  have hbuffer (line : HeadLine) {E : PyError → World → Prop} {U : World → Prop} :
      Triple (UnlessBroken env (Framed env subc 0)) (bufferLine env line) (fun _ => UnlessBroken env (Framed env subc 0))
        E U := by
    refine Triple.ite (fun _ => triple_pure fun _ h => h) fun _ => triple_modify fun w h => ?_
    exact h.imp_right fun h => ⟨h.polls, h.written, h.connection, h.stderr⟩
  unfold consume
  apply Triple.bind (R := fun _ => UnlessBroken env (Framed env subc 0))
  · refine (triple_logRequest (fun _ h _ => h) fun w e h hfault => ?_).bind fun _ => hbuffer _
    refine h.imp_right fun h => ⟨0, h, fun hlog => ?_⟩
    rw [Environment.lineFault_eq h.stderr, hlog] at hfault
    cases hfault
  intro _
  refine (hbuffer _).bind fun _ => (hbuffer _).bind fun _ => (hbuffer _).bind fun _ => ?_
  apply Triple.bind (R := fun _ => UnlessBroken env (Framed env subc 0))
  · exact triple_endHeaders_framed.mono (fun _ h => h) (fun _ _ h => h) (fun _ _ h => h.mono fun _ h => h.elim) fun _ h => h
  intro _
  apply Triple.bind (R := fun _ => UnlessBroken env (Finished env subc timeout fuel))
  · apply triple_counted (I := fun i => UnlessBroken env (Framed env subc i))
    · intro i
      refine (triple_streamRound_framed timeout fuel i).weaken fun again w h => ?_
      cases again <;> exact h
    · intro w h
      rw [Nat.zero_add] at h
      exact h.mono fun w h => ⟨fuel, h, fun _ => .cut⟩
  · intro _
    exact triple_cleanup_framed.bind fun _ => triple_pure fun _ h => ⟨rfl, h⟩

theorem Events.Opens.triple_serve {r : Request} (h : Opens env r subc) (fuel : ℕ) {I J : World → Prop}
    (hrecord : ∀ a : Action, a.head? = none → a.isPoll = false → a.written? = none →
      Triple I (emit a) (fun _ => I) (fun _ => J) J)
    (hconsume : Triple I (consume env fuel subc (Events.timeout env r)) (fun handled w => handled = true ∧ J w)
      (fun _ => J) J) :
    Triple I (APIHandler.serve env fuel r) (fun _ => J) (fun _ => J) J := by
  have hne (other : String) (ho : ¬IsEventsPath other) : r.path ≠ other := fun heq => ho (heq ▸ h.path)
  unfold APIHandler.serve APIHandler.doGET
  rw [h.method]
  dsimp only
  rw [if_neg (hne _ (by decide)), if_neg (hne _ (by decide))]
  apply Triple.bind (R := fun handled w => handled = true ∧ J w)
  · unfold handleEventsGET
    simp only [h.endpoint]
    rw [if_neg (not_not_intro h.path), if_neg (by decide)]
    change Triple _ (emit (.authorize _ (env.authorizeBearer _ _)) >>= fun _ => _) _ _ _
    refine (hrecord _ rfl rfl rfl).bind fun _ => ?_
    rw [if_neg (by simp [h.authorized]), if_neg h.topic]
    refine (hrecord _ rfl rfl rfl).bind fun _ => ?_
    simp only [h.subscribed]
    rw [if_neg (by decide)]
    exact hconsume
  · rintro handled w ⟨rfl, hw⟩
    exact hw

theorem triple_serve_framed {r : Request} (h : Opens env r subc) (fuel : ℕ) :
    Triple (UnlessBroken env (Framed env subc 0)) (APIHandler.serve env fuel r)
      (fun _ => UnlessBroken env (Finished env subc (Events.timeout env r) fuel))
      (fun _ => UnlessBroken env (Finished env subc (Events.timeout env r) fuel))
      (UnlessBroken env (Finished env subc (Events.timeout env r) fuel)) := by
  apply h.triple_serve
  · intro a hhead hpoll hwritten
    refine (triple_emit_streamed hhead).weaken fun _ w h => h.mono fun w h => ?_
    simpa [Framed, hpoll, hwritten] using h
  · exact triple_consume_framed fuel _

end stream

theorem unbroken_blobs {env : Environment} (hfloat : ∀ x, EventStream.Unbroken (env.floatRepr x))
    {subc : Subscription} {polls : ℕ} : ∀ blob ∈ Events.blobs env subc polls, EventStream.Unbroken blob := by
  intro blob hblob
  obtain ⟨i, -, hi⟩ := List.mem_filterMap.mp hblob
  have hcovers : Covers (fun c => c ≠ '\r' ∧ c ≠ '\n') env.floatRepr := by
    refine ⟨?_, hfloat⟩
    rintro c ⟨hlow, -⟩
    constructor <;> rintro rfl <;> exact absurd hlow (by decide)
  unfold Events.blob? at hi
  split at hi
  · next msg _ =>
    cases htext : dumps env.floatRepr (Events.messageFields msg) with
    | error e => rw [htext] at hi; cases hi
    | ok text =>
      rw [htext] at hi
      obtain rfl := Option.some.inj hi
      exact hcovers.of_dumps _ htext
  · cases hi

theorem parse_frames {blobs : List (List Char)} (h : ∀ blob ∈ blobs, EventStream.Unbroken blob) :
    EventStream.parse (Events.frames blobs) = blobs.map fun blob => ⟨"message".toList, blob, []⟩ := by
  have hitems : ∀ item ∈ blobs.map fun blob => ("message".toList, blob),
      EventStream.Unbroken item.1 ∧ EventStream.Unbroken item.2 ∧ item.1 ≠ [] := by
    intro item hitem
    obtain ⟨blob, hblob, rfl⟩ := List.mem_map.mp hitem
    simp only [String.reduceToList]
    refine ⟨EventStream.unbroken_of_all ?_, h blob hblob, List.cons_ne_nil _ _⟩
    decide
  have hparse := EventStream.parse_frames _ hitems
  rwa [List.flatMap_map, List.map_map] at hparse

theorem stream_unambiguous (env : Environment) (fuel : ℕ) (r : Request) (subc : Subscription) (server : Server)
    (files : Str → Option (List UInt8)) (hfloat : ∀ x, EventStream.Unbroken (env.floatRepr x))
    (hopens : Events.Opens env r subc)
    (hsends : ∀ n < (APIHandler.serve env fuel r (World.start server files)).2.sends, env.sendFault n = none) :
    let w := (APIHandler.serve env fuel r (World.start server files)).2
    w.written = Events.frames (Events.blobs env subc w.polls) ∧
      EventStream.parseBytes (String.ofList w.written).toByteArray =
        some ((Events.blobs env subc w.polls).map fun blob => ⟨"message".toList, blob, []⟩) ∧
      (env.logFault = none → Events.Stops env subc (Events.timeout env r) fuel w.polls) := by
  intro w
  have hrun : UnlessBroken env (Events.Finished env subc (Events.timeout env r) fuel) w :=
    (triple_serve_framed hopens fuel).final (.inr ⟨rfl, rfl, rfl, rfl⟩)
  obtain ⟨n, hn, hbad⟩ | ⟨k, hframed, hstops⟩ := hrun
  · exact absurd (hsends n hn) hbad
  · have hwritten : w.written = Events.frames (Events.blobs env subc w.polls) := by
      rw [hframed.polls]
      exact hframed.written
    refine ⟨hwritten, ?_, hframed.polls ▸ hstops⟩
    rw [EventStream.parseBytes_ofList, hwritten, parse_frames (unbroken_blobs hfloat)]

def Sample.message (payload : Value) : Message :=
  ⟨.text "m1", .text "news", .int 0, .dict [], payload⟩

def Sample.forger : Subscription where
  poll
    | 0 => .ok (some (Sample.message (.text "x\n\nevent: admin\ndata: forged")))
    | _ => .ok (some (Sample.message (.object 0)))
  close := none
  unsubscribe := none

def Sample.consume : Request where
  method := .get
  path := "/events/consume"
  header name := if name = "X-Topic" then some "news" else none
  read _ := .ok []
  waits _ := false

theorem stream_unambiguous_forger :
    let env := { Environment.idle with subscribe := fun _ _ => .ok Sample.forger }
    let w := (APIHandler.serve env 2 Sample.consume (World.start ⟨none, none⟩ fun _ => none)).2
    w.written = Events.frames (Events.blobs env Sample.forger w.polls) ∧
      EventStream.parseBytes (String.ofList w.written).toByteArray =
        some ((Events.blobs env Sample.forger w.polls).map fun blob => ⟨"message".toList, blob, []⟩) ∧
      (env.logFault = none → Events.Stops env Sample.forger (Events.timeout env Sample.consume) 2 w.polls) := by
  apply stream_unambiguous
  · intro x c hc
    cases hc
  · exact ⟨rfl, by decide, by decide, rfl, by decide, rfl⟩
  · exact fun _ _ => rfl

end TrinityOS.Service
