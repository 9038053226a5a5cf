import TrinityOS.Service.JsonRoundTrip
import TrinityOS.Service.Streaming

namespace TrinityOS.Service

open Program

theorem joined_str (s : String) : Joined (str s) := by
  have hscalar : ∀ c ∈ str s, c < 0x110000 ∧ ¬(0xD800 ≤ c ∧ c < 0xE000) := by
    intro n hn
    obtain ⟨c, -, rfl⟩ := List.mem_map.mp hn
    have hvalid : c.toNat < 0xD800 ∨ 0xDFFF < c.toNat ∧ c.toNat < 0x110000 := c.valid
    omega
  refine ⟨fun c hc => (hscalar c hc).1, ?_⟩
  apply List.Pairwise.isChain
  apply List.pairwise_of_forall_mem_list
  rintro high hhigh low - ⟨h, -⟩
  have hlimits := hscalar high hhigh
  have hrange := isHighSurrogate_iff.mp h
  omega

namespace Events

/-- What the broker delivers are values that can be read from JSON texts. -/
def Transportable (depth : ℕ) (msg : Message) : Prop :=
  ∀ v ∈ [msg.id, msg.topic, msg.ts, msg.headers, msg.payload], Loadable depth v

theorem Transportable.loadable {depth : ℕ} {msg : Message} (h : Transportable depth msg) :
    Loadable (depth + 1) (messageFields msg) := by
  apply Loadable.dict
  · simp only [List.map_cons, List.map_nil]
    decide
  · intro p hp
    obtain ⟨q, -, rfl⟩ := List.mem_map.mp hp
    exact joined_str q.1
  · intro p hp
    apply h
    simp only [List.map_cons, List.map_nil, List.mem_cons, List.not_mem_nil, or_false] at hp
    rcases hp with rfl | rfl | rfl | rfl | rfl <;> simp

def delivered? (env : Environment) (subc : Subscription) (i : ℕ) : Option Message :=
  match subc.poll i with
  | .ok (some msg) => if (dumps env.floatRepr (messageFields msg)).isOk then some msg else none
  | _ => none

def delivered (env : Environment) (subc : Subscription) (polls : ℕ) : List Message :=
  (List.range polls).filterMap (delivered? env subc)

def Broken (env : Environment) (w : World) : Prop := ∃ n < w.sends, env.sendFault n ≠ none

/-- The end of a stream after frames for what the first `k` polls have delivered; if a write has
raised there may have been one more poll, and the first line of its frame. -/
structure Ended (env : Environment) (subc : Subscription) (k : ℕ) (w : World) : Prop where
  polls : w.polls = k ∨ w.polls = k + 1 ∧ Broken env w
  written : w.written = frames (blobs env subc k) ∨
    w.written = frames (blobs env subc k) ++ "event: message\n".toList

def Left (env : Environment) (subc : Subscription) (w : World) : Prop := ∃ k, Ended env subc k w

variable {env : Environment} {subc : Subscription} {w : World} {i k : ℕ} {text : List Char} {a : Action}

theorem Framed.ended (h : Framed env subc k w) : Ended env subc k w := ⟨.inl h.polls, .inl h.written⟩

theorem Framed.left (h : Framed env subc k w) : Left env subc w := ⟨k, h.ended⟩

theorem Ended.append (h : Ended env subc k w) (hhead : a.head? = none) (hpoll : a.isPoll = false)
    (hwritten : a.written? = none) : Ended env subc k { w with trace := w.trace ++ [a] } := by
  have htrace : World.written { w with trace := w.trace ++ [a] } = w.written := by
    rw [World.written, List.rtakeWhile_concat_pos _ _ _ (by simp [hhead]), List.filterMap_append, List.flatten_append]
    simp [World.written, hwritten]
  have hcount : World.polls { w with trace := w.trace ++ [a] } = w.polls := by
    rw [World.polls, List.countP_append, List.countP_singleton, hpoll]
    rfl
  exact ⟨by rw [hcount]; exact h.polls, by rw [htrace]; exact h.written⟩

theorem Ended.of_broken (hbroken : Broken env w) (h : Streamed (k + 1) text w)
    (htext : text = frames (blobs env subc k) ∨ text = frames (blobs env subc k) ++ "event: message\n".toList) :
    Ended env subc k w :=
  ⟨.inr ⟨h.polls, hbroken⟩, by rw [h.written]; exact htext⟩

end Events

section stream

open Events

variable {env : Environment} {subc : Subscription} {E : PyError → World → Prop} {U : World → Prop} {i : ℕ}
  {text : List Char}

theorem triple_transmit_streamed {text' : List Char} {a : Action}
    (h : ∀ w, Streamed i text w → Streamed i text' { w with trace := w.trace ++ [a] }) :
    Triple (Streamed i text) (transmit env a) (fun _ => Streamed i text')
      (fun _ w => Streamed i text w ∧ Broken env w) U := by
  refine triple_transmit (fun w hw _ => h _ hw.sent) fun w e hw hfault => ⟨hw.sent, w.sends, Nat.lt_succ_self _, ?_⟩
  rw [← Environment.writeFault_eq hw.connection, hfault]
  exact Option.some_ne_none e

theorem triple_writeBody_broken (data : List Char) :
    Triple (Streamed i text) (writeBody env data) (fun _ => Streamed i (text ++ data))
      (fun _ w => Streamed i text w ∧ Broken env w) U :=
  triple_transmit_streamed fun _ h => Streamed.append (a := .write data) h rfl

theorem triple_writeMessage_broken {msg : Message} (hpoll : subc.poll i = .ok (some msg)) :
    Triple (Streamed (i + 1) (frames (blobs env subc i))) (writeMessage env msg).attempt
      (fun written w => if written.isOk then Framed env subc (i + 1) w else Left env subc w) E U := by
  apply Triple.attempt
  unfold writeMessage
  have hblobs := @blobs_succ env subc i
  rw [blob?, hpoll] at hblobs
  cases hblob : dumps env.floatRepr (messageFields msg) with
  | error e =>
    simp only [hblob, Except.toOption, Option.toList_none, List.append_nil] at hblobs
    apply Triple.bind (R := fun _ _ => False)
    · refine triple_raise fun w h => ⟨i + 1, .inl h.polls, .inl ?_⟩
      rw [h.written, hblobs]
    · rintro _ _ ⟨⟩
  | ok blob =>
    simp only [hblob, Except.toOption, Option.toList_some] at hblobs
    rw [ofExcept_ok_bind]
    have hended (w : World) {text : List Char} (htext : text = frames (blobs env subc i) ∨
        text = frames (blobs env subc i) ++ "event: message\n".toList)
        (h : Streamed (i + 1) text w ∧ Broken env w) : Left env subc w :=
      ⟨i, .of_broken h.2 h.1 htext⟩
    refine Triple.bind ((triple_writeBody_broken _).mono (fun _ h => h) (fun _ _ h => h)
      (fun _ w => hended w (.inl rfl)) fun _ h => h) fun _ => ?_
    refine (triple_writeBody_broken _).mono (fun _ h => h) (fun _ w h => ?_) (fun _ w => hended w (.inr rfl)) fun _ h => h
    change Framed env subc (i + 1) w
    rw [Framed, hblobs, frames_concat]
    exact h

theorem triple_streamRound_ended (timeout : Float) (i : ℕ) :
    Triple (Framed env subc i) (streamRound env subc timeout i)
      (fun again w => if again then Framed env subc (i + 1) w else Left env subc w) E U := by
  refine Triple.ite (fun _ => ?_) fun _ => triple_pure fun w h => h.left
  apply Triple.bind (R := fun _ => Streamed (i + 1) (frames (blobs env subc i)))
  · refine triple_modify fun w h => ?_
    simpa [Action.isPoll, Action.written?] using Streamed.append (a := .poll 1) h rfl
  intro _
  have hskip (hnone : blob? env subc i = none) (w : World) (h : Streamed (i + 1) (frames (blobs env subc i)) w) :
      Framed env subc (i + 1) w := by
    rw [Framed, blobs_succ, hnone]
    simpa using h
  cases hpoll : subc.poll i with
  | error e => exact triple_pure fun w h => (hskip (by rw [blob?, hpoll]) w h).left
  | ok message =>
    cases message with
    | none => exact triple_pure fun w h => hskip (by rw [blob?, hpoll]) w h
    | some msg =>
      refine (triple_writeMessage_broken hpoll).bind fun written => ?_
      rcases written with _ | ⟨⟩
      · exact triple_pure fun w h => h
      · exact triple_pure fun w h => h

theorem triple_cleanup_ended : Triple (Left env subc) (cleanup subc) (fun _ => Left env subc) E U := by
  have hemit (a : Action) (hhead : a.head? = none) (hpoll : a.isPoll = false) (hwritten : a.written? = none) :
      Triple (Left env subc) (emit a) (fun _ => Left env subc) E U := by
    apply triple_modify
    rintro w ⟨k, h⟩
    exact ⟨k, h.append hhead hpoll hwritten⟩
  unfold cleanup
  split
  · exact hemit _ rfl rfl rfl
  · exact hemit _ rfl rfl rfl
  · exact triple_pure fun _ h => h

theorem triple_endHeaders_ended :
    Triple (Framed env subc 0) (endHeaders env) (fun _ => Framed env subc 0) (fun _ => Left env subc) U := by
  refine Triple.ite (fun _ => triple_pure fun _ h => h) fun _ => triple_read_bind fun w hw => ?_
  apply Triple.bind (R := fun _ => Framed env subc 0)
  · apply ((triple_transmit_streamed fun v hv => hv.head w.headersBuffer).at_state hw).mono
    · exact fun _ h => h
    · exact fun _ _ h => h
    · exact fun _ _ h => Framed.left h.1
    · exact fun _ h => h
  · exact fun _ => triple_modify fun w h => ⟨h.polls, h.written, h.connection, h.stderr⟩

theorem triple_consume_left (fuel : ℕ) (timeout : Float) :
    Triple (Framed env subc 0) (consume env fuel subc timeout) (fun handled w => handled = true ∧ Left env subc w)
      (fun _ => Left env subc) (Left env subc) := by
  have hbuffer (line : HeadLine) {E : PyError → World → Prop} {U : World → Prop} :
      Triple (Framed env subc 0) (bufferLine env line) (fun _ => Framed env subc 0) E U := by
    refine Triple.ite (fun _ => triple_pure fun _ h => h) fun _ => triple_modify fun w h => ?_
    exact ⟨h.polls, h.written, h.connection, h.stderr⟩
  unfold consume
  apply Triple.bind (R := fun _ => Framed env subc 0)
  · exact (triple_logRequest (fun _ h _ => h) fun _ _ h _ => h.left).bind fun _ => hbuffer _
  intro _
  refine (hbuffer _).bind fun _ => (hbuffer _).bind fun _ => (hbuffer _).bind fun _ => ?_
  refine triple_endHeaders_ended.bind fun _ => ?_
  apply Triple.bind (R := fun _ => Left env subc)
  · apply triple_counted (I := fun i => Framed env subc i)
    · exact fun i => triple_streamRound_ended timeout i
    · exact fun w h => h.left
  · exact fun _ => triple_cleanup_ended.bind fun _ => triple_pure fun _ h => ⟨rfl, h⟩

theorem triple_serve_left {r : Request} (h : Opens env r subc) (fuel : ℕ) :
    Triple (Framed env subc 0) (APIHandler.serve env fuel r) (fun _ => Left env subc) (fun _ => Left env subc)
      (Left env subc) := by
  apply h.triple_serve
  · intro a hhead hpoll hwritten
    refine triple_modify fun w hw => ?_
    simpa [Framed, hpoll, hwritten] using hw.append hhead
  · exact triple_consume_left fuel _

end stream

section client

open Events

variable {env : Environment} {subc : Subscription} {w : World} {depth : ℕ}

theorem parse_broken {blobs : List (List Char)} (h : ∀ blob ∈ blobs, EventStream.Unbroken blob) :
    EventStream.parse (frames blobs ++ "event: message\n".toList) =
      blobs.map fun blob => ⟨"message".toList, blob, []⟩ := by
  have hmessage : EventStream.Unbroken "message".toList := by
    simp only [String.reduceToList]
    exact EventStream.unbroken_of_all (by decide)
  have hitems : ∀ item ∈ blobs.map fun blob => ("message".toList, blob),
      EventStream.Unbroken item.1 ∧ EventStream.Unbroken item.2 ∧ item.1 ≠ [] := by
    intro item hitem
    obtain ⟨blob, hblob, rfl⟩ := List.mem_map.mp hitem
    exact ⟨hmessage, h blob hblob, by simp⟩
  have hparse := @EventStream.parse_frames_append "event: message\n".toList _ hitems (by simp)
  rw [List.flatMap_map, List.map_map] at hparse
  have hstart : "event: message\n".toList = "event: ".toList ++ "message".toList ++ ['\n'] := rfl
  rw [hstart, EventStream.events_broken hmessage, List.append_nil, ← hstart] at hparse
  exact hparse

theorem Events.Left.written (h : Left env subc w) : ∃ k, k ≤ w.polls ∧ w.polls ≤ k + 1 ∧ (¬Broken env w → k = w.polls) ∧
    (w.written = frames (blobs env subc k) ∨ w.written = frames (blobs env subc k) ++ "event: message\n".toList) := by
  obtain ⟨k, h⟩ := h
  obtain hpolls | ⟨hpolls, hbroken⟩ := h.polls
  · exact ⟨k, hpolls.ge, by omega, fun _ => hpolls.symm, h.written⟩
  · exact ⟨k, by omega, hpolls.le, fun hnot => absurd hbroken hnot, h.written⟩

theorem loads_blobs (hf : RepresentsFloats env.floatRepr)
    (htransportable : ∀ i msg text, subc.poll i = .ok (some msg) → dumps env.floatRepr (messageFields msg) = .ok text →
      Transportable depth msg) (k : ℕ) :
    (blobs env subc k).map (loads (depth + 1)) = (delivered env subc k).map fun msg => .ok (messageFields msg) := by
  unfold blobs delivered
  rw [List.map_filterMap, List.map_filterMap]
  congr 1
  funext i
  unfold blob? delivered?
  cases hpoll : subc.poll i with
  | error e => rfl
  | ok message =>
    cases message with
    | none => rfl
    | some msg =>
      cases htext : dumps env.floatRepr (messageFields msg) with
      | error e => simp [htext, Except.toOption, Except.isOk, Except.toBool]
      | ok text =>
        have hloads := (htransportable i msg text hpoll htext).loadable.loads_dumps hf htext
        simp [htext, hloads, Except.toOption, Except.isOk, Except.toBool]

theorem stream_delivers (env : Environment) (fuel : ℕ) (r : Request) (subc : Subscription) (server : Server)
    (files : Str → Option (List UInt8)) (hf : RepresentsFloats env.floatRepr) (hopens : Opens env r subc)
    (htransportable : ∀ i msg text, subc.poll i = .ok (some msg) → dumps env.floatRepr (messageFields msg) = .ok text →
      Transportable depth msg) :
    let w := (APIHandler.serve env fuel r (World.start server files)).2
    ∃ k events, k ≤ w.polls ∧ w.polls ≤ k + 1 ∧ (¬Broken env w → k = w.polls) ∧
      EventStream.parseBytes (String.ofList w.written).toByteArray = some events ∧
      (events.map fun e => (e.type, loads (depth + 1) e.data)) =
        (delivered env subc k).map fun msg => ("message".toList, .ok (messageFields msg)) := by
  intro w
  have hleft : Left env subc w := (triple_serve_left hopens fuel).final ⟨rfl, rfl, rfl, rfl⟩
  obtain ⟨k, hle, hlt, hwhole, hwritten⟩ := hleft.written
  refine ⟨k, (blobs env subc k).map fun blob => ⟨"message".toList, blob, []⟩, hle, hlt, hwhole, ?_, ?_⟩
  · have hunbroken : ∀ blob ∈ blobs env subc k, EventStream.Unbroken blob := by
      apply unbroken_blobs
      rintro x c hc
      have hprintable := hf.printable x c hc
      constructor <;> rintro rfl <;> exact absurd hprintable.1 (by decide)
    rw [EventStream.parseBytes_ofList]
    rcases hwritten with hwritten | hwritten
    · rw [hwritten, parse_frames hunbroken]
    · rw [hwritten, parse_broken hunbroken]
  · have hloads := congrArg (List.map (Prod.mk "message".toList)) (loads_blobs hf htransportable k)
    rw [List.map_map, List.map_map] at hloads
    rw [List.map_map]
    exact hloads

theorem stream_delivers_forger :
    let env := { Environment.idle with
      floatRepr := literalOf
      subscribe := fun _ _ => .ok Sample.forger
      sendFault := fun n => if n = 2 then some .brokenPipeError else none }
    let w := (APIHandler.serve env 2 Sample.consume (World.start ⟨none, none⟩ fun _ => none)).2
    ∃ k events, k ≤ w.polls ∧ w.polls ≤ k + 1 ∧ (¬Broken env w → k = w.polls) ∧
      EventStream.parseBytes (String.ofList w.written).toByteArray = some events ∧
      (events.map fun e => (e.type, loads 2 e.data)) =
        (delivered env Sample.forger k).map fun msg => ("message".toList, .ok (messageFields msg)) := by
  apply stream_delivers
  · exact representsFloats_literalOf
  · exact ⟨rfl, by decide, by decide, rfl, by decide, rfl⟩
  · intro i msg text hpoll htext
    cases i with
    | zero =>
      obtain rfl := Option.some.inj (Except.ok.inj hpoll)
      intro v hv
      simp only [List.mem_cons, List.not_mem_nil, or_false] at hv
      rcases hv with rfl | rfl | rfl | rfl | rfl
      · exact .str (joined_str _)
      · exact .str (joined_str _)
      · exact .int (Nat.pow_pos (by decide))
      · exact .dict (by decide) (by simp) (by simp)
      · exact .str (joined_str _)
    | succ i =>
      obtain rfl := Option.some.inj (Except.ok.inj hpoll)
      cases htext

end client

end TrinityOS.Service
