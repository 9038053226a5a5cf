import Mathlib.Data.List.TakeWhile
import Mathlib.Data.Nat.Notation

namespace TrinityOS.EventStream

structure Event where
  type : List Char
  data : List Char
  lastEventId : List Char
  deriving DecidableEq

/-- What the fields since the last blank line have set; the identifier stays. -/
structure Buffers where
  type : List Char
  data : List Char
  lastEventId : List Char
  deriving DecidableEq

/-- The lines of a stream, `line` being what has been read of the first; what no line end follows
is not a line yet. -/
def lines (line : List Char) : List Char → List (List Char)
  | [] => []
  | '\r' :: '\n' :: rest => line :: lines [] rest
  | '\r' :: rest => line :: lines [] rest
  | '\n' :: rest => line :: lines [] rest
  | c :: rest => lines (line ++ [c]) rest

/-- Name and value of a field, less the one space after the colon. A line without a colon is a
name, and a comment is a field without a name. -/
def splitField (line : List Char) : List Char × List Char :=
  let value := (line.dropWhile (· ≠ ':')).tail
  (line.takeWhile (· ≠ ':'), if value.head? = some ' ' then value.tail else value)

namespace Buffers

/-- `retry` and unknown names say nothing about the events. -/
def field (b : Buffers) (line : List Char) : Buffers :=
  let (name, value) := splitField line
  if name = "event".toList then { b with type := value }
  else if name = "data".toList then { b with data := b.data ++ value ++ ['\n'] }
  else if name = "id".toList ∧ '\u0000' ∉ value then { b with lastEventId := value }
  else b

def dispatch (b : Buffers) : Option Event :=
  if b.data = [] then none
  else some
    { type := if b.type = [] then "message".toList else b.type
      data := if b.data.getLast? = some '\n' then b.data.dropLast else b.data
      lastEventId := b.lastEventId }

def events (b : Buffers) : List (List Char) → List Event
  | [] => []
  | [] :: rest => b.dispatch.toList ++ events ⟨[], [], b.lastEventId⟩ rest
  | line :: rest => events (b.field line) rest

end Buffers

def parse (stream : List Char) : List Event :=
  Buffers.events ⟨[], [], []⟩ (lines [] (if stream.head? = some '\uFEFF' then stream.tail else stream))

/-- `none` where the bytes are no UTF-8. -/
def parseBytes (bytes : ByteArray) : Option (List Event) :=
  bytes.utf8Decode?.map fun stream => parse stream.toList

example : parse "data: a\ndata:  b\n\ndata: c".toList = [⟨"message".toList, "a\n b".toList, []⟩] := by decide

theorem parseBytes_ofList (s : List Char) : parseBytes (String.ofList s).toByteArray = some (parse s) := by
  rw [parseBytes, String.toByteArray_ofList, List.utf8Decode?_utf8Encode]
  rfl

def Unbroken (s : List Char) : Prop := ∀ c ∈ s, c ≠ '\r' ∧ c ≠ '\n'

def frame (type data : List Char) : List Char :=
  "event: ".toList ++ type ++ "\ndata: ".toList ++ data ++ "\n\n".toList

variable {s type data line rest : List Char} {b : Buffers}

theorem lines_cons {c : Char} (hc : c ≠ '\r' ∧ c ≠ '\n') : lines line (c :: rest) = lines (line ++ [c]) rest := by
  rw [lines]
  · exact fun _ h => absurd h hc.1
  · exact hc.1
  · exact hc.2

theorem lines_unbroken (h : Unbroken s) : lines line (s ++ '\n' :: rest) = (line ++ s) :: lines [] rest := by
  induction s generalizing line with
  | nil => rw [List.nil_append, List.append_nil, lines]
  | cons c s ih =>
    have hs : Unbroken s := fun d hd => h d (List.mem_cons_of_mem _ hd)
    rw [List.cons_append, lines_cons (h c (List.mem_cons_self ..)), ih hs, List.append_assoc]
    rfl

theorem splitField_append {name value : List Char} (h : ':' ∉ name) :
    splitField (name ++ ':' :: ' ' :: value) = (name, value) := by
  have hname : ∀ c ∈ name, decide (c ≠ ':') = true := by
    intro c hc
    simp only [ne_eq, decide_eq_true_eq]
    rintro rfl
    exact h hc
  rw [splitField, List.takeWhile_append_of_pos hname, List.dropWhile_append_of_pos hname]
  simp

theorem Buffers.field_event : b.field ("event: ".toList ++ type) = { b with type := type } := by
  have hsplit : splitField ("event".toList ++ ':' :: ' ' :: type) = ("event".toList, type) :=
    splitField_append (by decide)
  change b.field ("event".toList ++ ':' :: ' ' :: type) = _
  rw [Buffers.field, hsplit]
  rfl

theorem Buffers.field_data :
    b.field ("data: ".toList ++ data) = { b with data := b.data ++ data ++ ['\n'] } := by
  have hsplit : splitField ("data".toList ++ ':' :: ' ' :: data) = ("data".toList, data) :=
    splitField_append (by decide)
  change b.field ("data".toList ++ ':' :: ' ' :: data) = _
  rw [Buffers.field, hsplit]
  rfl

theorem Unbroken.append (hs : Unbroken s) (hrest : Unbroken rest) : Unbroken (s ++ rest) := by
  intro c hc
  rcases List.mem_append.mp hc with hc | hc
  · exact hs c hc
  · exact hrest c hc

theorem unbroken_of_all (h : s.all fun c => c ≠ '\r' ∧ c ≠ '\n') : Unbroken s :=
  fun c hc => of_decide_eq_true (List.all_eq_true.mp h c hc)

theorem lines_frame (htype : Unbroken type) (hdata : Unbroken data) :
    lines [] (frame type data ++ rest) =
      ("event: ".toList ++ type) :: ("data: ".toList ++ data) :: [] :: lines [] rest := by
  have hevent : Unbroken ("event: ".toList ++ type) := by
    apply Unbroken.append (unbroken_of_all _) htype
    simp only [String.reduceToList]
    decide
  have hline : Unbroken ("data: ".toList ++ data) := by
    apply Unbroken.append (unbroken_of_all _) hdata
    simp only [String.reduceToList]
    decide
  have hframe : frame type data ++ rest =
      ("event: ".toList ++ type) ++ '\n' :: (("data: ".toList ++ data) ++ '\n' :: '\n' :: rest) := by
    change "event: ".toList ++ type ++ "\ndata: ".toList ++ data ++ "\n\n".toList ++ rest = _
    simp only [String.reduceToList, List.cons_append, List.nil_append, List.append_assoc]
  rw [hframe, lines_unbroken hevent, lines_unbroken hline, lines]
  · rfl

theorem events_frame (htype : Unbroken type) (hdata : Unbroken data) (hnamed : type ≠ []) {id : List Char} :
    Buffers.events ⟨[], [], id⟩ (lines [] (frame type data ++ rest)) =
      ⟨type, data, id⟩ :: Buffers.events ⟨[], [], id⟩ (lines [] rest) := by
  rw [lines_frame htype hdata, Buffers.events, Buffers.field_event, Buffers.events, Buffers.field_data,
    Buffers.events, Buffers.dispatch]
  · simp [hnamed]
  · simp
  · simp

theorem events_frames (items : List (List Char × List Char))
    (h : ∀ item ∈ items, Unbroken item.1 ∧ Unbroken item.2 ∧ item.1 ≠ []) (id rest : List Char) :
    Buffers.events ⟨[], [], id⟩ (lines [] ((items.flatMap fun item => frame item.1 item.2) ++ rest)) =
      (items.map fun item => ⟨item.1, item.2, id⟩) ++ Buffers.events ⟨[], [], id⟩ (lines [] rest) := by
  induction items with
  | nil => rfl
  | cons item items ih =>
    obtain ⟨htype, hdata, hnamed⟩ := h item (List.mem_cons_self ..)
    have htail := ih fun item hitem => h item (List.mem_cons_of_mem _ hitem)
    rw [List.flatMap_cons, List.append_assoc, events_frame htype hdata hnamed, htail, List.map_cons, List.cons_append]

theorem parse_frames_append (items : List (List Char × List Char))
    (h : ∀ item ∈ items, Unbroken item.1 ∧ Unbroken item.2 ∧ item.1 ≠ []) (hrest : rest.head? ≠ some '\uFEFF') :
    parse ((items.flatMap fun item => frame item.1 item.2) ++ rest) =
      (items.map fun item => ⟨item.1, item.2, []⟩) ++ Buffers.events ⟨[], [], []⟩ (lines [] rest) := by
  have hmark : ((items.flatMap fun item => frame item.1 item.2) ++ rest).head? ≠ some '\uFEFF' := by
    cases items with
    | nil => exact hrest
    | cons item items =>
      have hfirst : (frame item.1 item.2).head? = some 'e' := by
        change ("event: ".toList ++ item.1 ++ "\ndata: ".toList ++ item.2 ++ "\n\n".toList).head? = _
        simp only [String.reduceToList, List.cons_append, List.head?_cons]
      rw [List.flatMap_cons, List.append_assoc, List.head?_append, hfirst]
      simp
  rw [parse, if_neg hmark]
  exact events_frames items h [] rest

theorem parse_frames (items : List (List Char × List Char))
    (h : ∀ item ∈ items, Unbroken item.1 ∧ Unbroken item.2 ∧ item.1 ≠ []) :
    parse (items.flatMap fun item => frame item.1 item.2) = items.map fun item => ⟨item.1, item.2, []⟩ := by
  have hparse := @parse_frames_append [] items h (by simp)
  rwa [List.append_nil, lines, Buffers.events, List.append_nil] at hparse

theorem events_broken (htype : Unbroken type) {id : List Char} :
    Buffers.events ⟨[], [], id⟩ (lines [] ("event: ".toList ++ type ++ ['\n'])) = [] := by
  have hevent : Unbroken ("event: ".toList ++ type) := by
    apply Unbroken.append (unbroken_of_all _) htype
    simp only [String.reduceToList]
    decide
  rw [lines_unbroken hevent, lines, Buffers.events, Buffers.events]
  simp

end TrinityOS.EventStream
