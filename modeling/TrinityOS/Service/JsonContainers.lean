import TrinityOS.Service.JsonNumbers
import TrinityOS.Service.JsonStrings
import Mathlib.Data.List.Forall2

namespace TrinityOS.Service

def Blank (gap : List Char) : Prop := ∀ c ∈ gap, c ∈ [' ', '\t', '\n', '\r']

theorem blank_nil : Blank [] := by simp [Blank]

theorem blank_space : Blank [' '] := by simp [Blank]

theorem blank_newline (level : ℕ) : Blank (newline level) := by
  refine List.forall_mem_cons.mpr ⟨by decide, fun c hc => ?_⟩
  rw [List.eq_of_mem_replicate hc]
  decide

theorem Blank.skipWhitespace {gap : List Char} (h : Blank gap) (s : List Char) :
    skipWhitespace (gap ++ s) = skipWhitespace s := by
  apply List.dropWhile_append_of_pos
  exact fun c hc => decide_eq_true (h c hc)

theorem Blank.delimited {gap : List Char} (h : Blank gap) {closing : Char} (hclosing : closing ∈ [']', '}'])
    (s : List Char) : Delimited (gap ++ closing :: s) := by
  cases gap with
  | nil =>
    rintro c ⟨⟩
    exact List.mem_cons_of_mem _ (List.mem_append_left [' ', '\t', '\n', '\r'] hclosing)
  | cons d gap =>
    rintro c ⟨⟩
    exact List.mem_append_right [',', ']', '}'] (h _ List.mem_cons_self)

theorem delimited_comma (s : List Char) : Delimited (',' :: s) := by
  rintro c ⟨⟩
  decide

def Starts (s : List Char) : Prop := ∃ c ∈ s.head?, c ∉ [' ', '\t', '\n', '\r', ']', '}']

theorem Starts.append {s : List Char} (h : Starts s) (t : List Char) : Starts (s ++ t) := by
  obtain ⟨c, hc, hne⟩ := h
  refine ⟨c, ?_, hne⟩
  rw [Option.mem_def.mp (List.mem_head?_append_of_mem_head? hc)]
  rfl

theorem Starts.skipWhitespace {s : List Char} (h : Starts s) : skipWhitespace s = s := by
  obtain ⟨c, hc, hne⟩ := h
  obtain ⟨tail, rfl⟩ := List.head?_eq_some_iff.mp hc
  apply List.dropWhile_cons_of_neg
  simp only [List.mem_cons, not_or] at hne
  simp [hne]

theorem Starts.intercalate {part : List Char} (h : Starts part) (sep : List Char) (parts : List (List Char)) :
    Starts (sep.intercalate (part :: parts)) := by
  cases parts with
  | nil =>
    rw [List.intercalate_singleton]
    exact h
  | cons next parts =>
    rw [List.intercalate_cons_cons, List.append_assoc]
    exact h.append _

theorem length_le_intercalate {sep : List Char} (hsep : sep ≠ []) (parts : List (List Char)) :
    parts.length ≤ (sep.intercalate parts).length + 1 := by
  induction parts with
  | nil => simp
  | cons part parts ih =>
    cases parts with
    | nil => simp
    | cons next parts =>
      have hpos := List.length_pos_of_ne_nil hsep
      rw [List.intercalate_cons_cons, List.length_cons, List.length_append, List.length_append]
      omega

def laid (start gap pad : List Char) (closing : Char) (parts : List (List Char)) (rest : List Char) : List Char :=
  start ++ ((',' :: gap).intercalate parts ++ (pad ++ closing :: rest))

theorem length_le_laid (gap pad : List Char) (closing : Char) (parts : List (List Char)) (rest : List Char) :
    parts.length ≤ (laid [] gap pad closing parts rest).length := by
  have hlength := length_le_intercalate (List.cons_ne_nil ',' gap) parts
  simp only [laid, List.nil_append, List.length_append, List.length_cons]
  omega

theorem enclose_append (level : ℕ) (opening closing : Char) (parts : List (List Char)) (rest : List Char) :
    enclose level opening closing parts ++ rest = opening ::
      (if parts = [] then laid [] [] [] closing parts rest
        else laid (newline (level + 1)) (newline (level + 1)) (newline level) closing parts rest) := by
  unfold enclose laid
  split_ifs with h
  · rw [h]
    rfl
  · simp only [List.append_assoc, List.cons_append, List.nil_append]

/-! Containers -/

section containers

structure Reads (scan : List Char → Except PyError (Value × List Char)) (v : Value) (part : List Char) : Prop where
  scan : ∀ rest, Delimited rest → scan (part ++ rest) = .ok (v, rest)
  starts : Starts part

variable {scan : List Char → Except PyError (Value × List Char)} {v : Value} {n : ℕ}
  {s rest more tail start gap pad : List Char}

theorem scanElements_last (hscan : scan s = .ok (v, rest)) (hclose : skipWhitespace rest = ']' :: tail) :
    scanElements scan (n + 1) s = .ok ([v], tail) := by
  simp only [scanElements, hscan, hclose, bind, Except.bind, pure, Except.pure]

theorem scanElements_more {vs : List Value} (hscan : scan s = .ok (v, rest)) (hcomma : skipWhitespace rest = ',' :: more)
    (hmore : scanElements scan n (skipWhitespace more) = .ok (vs, tail)) :
    scanElements scan (n + 1) s = .ok (v :: vs, tail) := by
  simp only [scanElements, hscan, hcomma, hmore, bind, Except.bind, pure, Except.pure]

theorem scanElements_laid (hgap : Blank gap) (hpad : Blank pad) {vs : List Value} {parts : List (List Char)}
    (h : List.Forall₂ (Reads scan) vs parts) (hne : parts ≠ []) (hn : parts.length ≤ n) (rest : List Char) :
    scanElements scan n (laid [] gap pad ']' parts rest) = .ok (vs, rest) := by
  unfold laid
  rw [List.nil_append]
  induction h generalizing n with
  | nil => exact absurd rfl hne
  | @cons v part vs parts hread hrest ih =>
    obtain ⟨n, rfl⟩ : ∃ m, n = m + 1 := ⟨n - 1, by rw [List.length_cons] at hn; omega⟩
    cases hrest with
    | nil =>
      rw [List.intercalate_singleton]
      apply scanElements_last (hread.scan _ (hpad.delimited (by decide) _))
      rw [hpad.skipWhitespace]
      rfl
    | @cons _ next _ parts hnext _ =>
      rw [List.intercalate_cons_cons, List.append_assoc, List.append_assoc, List.cons_append]
      refine scanElements_more (hread.scan _ (delimited_comma _)) rfl ?_
      rw [hgap.skipWhitespace, ((hnext.starts.intercalate _ parts).append _).skipWhitespace]
      apply ih (by simp)
      rw [List.length_cons] at hn
      omega

theorem scanArray_of_starts {vs : List Value} (h : skipWhitespace s = more) (hstarts : Starts more)
    (helements : scanElements scan more.length more = .ok (vs, tail)) : scanArray scan s = .ok (.list vs, tail) := by
  unfold scanArray
  rw [h]
  split
  · obtain ⟨c, hc, hne⟩ := hstarts
    obtain rfl := Option.some.inj hc
    simp at hne
  · rw [helements]
    rfl

theorem scanArray_laid (hstart : Blank start) (hgap : Blank gap) (hpad : Blank pad) {vs : List Value}
    {parts : List (List Char)} (h : List.Forall₂ (Reads scan) vs parts) (rest : List Char) :
    scanArray scan (laid start gap pad ']' parts rest) = .ok (.list vs, rest) := by
  have hskip : skipWhitespace (laid start gap pad ']' parts rest) = skipWhitespace (laid [] gap pad ']' parts rest) :=
    hstart.skipWhitespace _
  cases h with
  | nil =>
    have hclose : skipWhitespace (laid start gap pad ']' [] rest) = ']' :: rest :=
      hskip.trans (hpad.skipWhitespace _)
    simp only [scanArray, hclose]
  | @cons _ part _ parts hread hrest =>
    have hmore : Starts (laid [] gap pad ']' (part :: parts) rest) := (hread.starts.intercalate _ _).append _
    apply scanArray_of_starts (hskip.trans hmore.skipWhitespace) hmore
    exact scanElements_laid hgap hpad (.cons hread hrest) (List.cons_ne_nil _ _) (length_le_laid _ _ _ _ _) rest

theorem scanArray_enclose {vs : List Value} {parts : List (List Char)} (h : List.Forall₂ (Reads scan) vs parts)
    (level : ℕ) (rest : List Char) :
    ∃ body, enclose level '[' ']' parts ++ rest = '[' :: body ∧ scanArray scan body = .ok (.list vs, rest) := by
  refine ⟨_, enclose_append level '[' ']' parts rest, ?_⟩
  split_ifs
  · exact scanArray_laid blank_nil blank_nil blank_nil h rest
  · exact scanArray_laid (blank_newline _) (blank_newline _) (blank_newline _) h rest

def ReadsMember (scan : List Char → Except PyError (Value × List Char)) (p : Str × Value) (part : List Char) : Prop :=
  Joined p.1 ∧ ∃ text, part = dumpsString p.1 ++ ':' :: ' ' :: text ∧ Reads scan p.2 text

variable {p : Str × Value} {part : List Char}

theorem ReadsMember.starts (h : ReadsMember scan p part) : Starts part := by
  obtain ⟨-, text, rfl, -⟩ := h
  exact ⟨'"', rfl, by decide⟩

theorem ReadsMember.scanned (h : ReadsMember scan p part) (hrest : Delimited rest) :
    ∃ s after, part ++ rest = '"' :: s ∧ scanString s = .ok (p.1, ':' :: after) ∧
      scan (skipWhitespace after) = .ok (p.2, rest) := by
  obtain ⟨hjoined, text, rfl, hread⟩ := h
  refine ⟨p.1.flatMap escape ++ '"' :: ':' :: ' ' :: (text ++ rest), ' ' :: (text ++ rest), ?_, ?_, ?_⟩
  · simp [dumpsString]
  · exact scanString_dumpsString hjoined _
  · have hspace : skipWhitespace (' ' :: (text ++ rest)) = text ++ rest := (hread.starts.append rest).skipWhitespace
    rw [hspace]
    exact hread.scan rest hrest

theorem skipWhitespace_colon (s : List Char) : skipWhitespace (':' :: s) = ':' :: s := rfl

theorem scanMembers_last (h : ReadsMember scan p part) (hrest : Delimited rest)
    (hclose : skipWhitespace rest = '\x7d' :: tail) : scanMembers scan (n + 1) (part ++ rest) = .ok ([p], tail) := by
  obtain ⟨s, after, hs, hkey, hv⟩ := h.scanned hrest
  simp only [hs, scanMembers, hkey, skipWhitespace_colon, hv, hclose, bind, Except.bind, pure, Except.pure]

theorem scanMembers_more {pairs : List (Str × Value)} (h : ReadsMember scan p part) (hrest : Delimited rest)
    (hcomma : skipWhitespace rest = ',' :: more) (hmore : scanMembers scan n (skipWhitespace more) = .ok (pairs, tail)) :
    scanMembers scan (n + 1) (part ++ rest) = .ok (p :: pairs, tail) := by
  obtain ⟨s, after, hs, hkey, hv⟩ := h.scanned hrest
  simp only [hs, scanMembers, hkey, skipWhitespace_colon, hv, hcomma, hmore, bind, Except.bind, pure, Except.pure]

theorem scanMembers_laid (hgap : Blank gap) (hpad : Blank pad) {pairs : List (Str × Value)}
    {parts : List (List Char)} (h : List.Forall₂ (ReadsMember scan) pairs parts) (hne : parts ≠ [])
    (hn : parts.length ≤ n) (rest : List Char) :
    scanMembers scan n (laid [] gap pad '\x7d' parts rest) = .ok (pairs, rest) := by
  unfold laid
  rw [List.nil_append]
  induction h generalizing n with
  | nil => exact absurd rfl hne
  | @cons p part pairs parts hmember hrest ih =>
    obtain ⟨n, rfl⟩ : ∃ m, n = m + 1 := ⟨n - 1, by rw [List.length_cons] at hn; omega⟩
    cases hrest with
    | nil =>
      rw [List.intercalate_singleton]
      apply scanMembers_last hmember (hpad.delimited (by decide) _)
      rw [hpad.skipWhitespace]
      rfl
    | @cons _ next _ parts hnext _ =>
      rw [List.intercalate_cons_cons, List.append_assoc, List.append_assoc, List.cons_append]
      refine scanMembers_more hmember (delimited_comma _) rfl ?_
      rw [hgap.skipWhitespace, ((hnext.starts.intercalate _ parts).append _).skipWhitespace]
      apply ih (by simp)
      rw [List.length_cons] at hn
      omega

theorem scanObject_of_starts {pairs : List (Str × Value)} (h : skipWhitespace s = more) (hstarts : Starts more)
    (hmembers : scanMembers scan more.length more = .ok (pairs, tail)) :
    scanObject scan s = .ok (Value.ofPairs pairs, tail) := by
  unfold scanObject
  rw [h]
  split
  · obtain ⟨c, hc, hne⟩ := hstarts
    obtain rfl := Option.some.inj hc
    simp at hne
  · rw [hmembers]
    rfl

theorem scanObject_laid (hstart : Blank start) (hgap : Blank gap) (hpad : Blank pad) {pairs : List (Str × Value)}
    {parts : List (List Char)} (h : List.Forall₂ (ReadsMember scan) pairs parts) (rest : List Char) :
    scanObject scan (laid start gap pad '\x7d' parts rest) = .ok (Value.ofPairs pairs, rest) := by
  have hskip : skipWhitespace (laid start gap pad '\x7d' parts rest) =
      skipWhitespace (laid [] gap pad '\x7d' parts rest) := hstart.skipWhitespace _
  cases h with
  | nil =>
    have hclose : skipWhitespace (laid start gap pad '\x7d' [] rest) = '\x7d' :: rest :=
      hskip.trans (hpad.skipWhitespace _)
    simp only [scanObject, hclose]
    rfl
  | @cons _ part _ parts hmember hrest =>
    have hmore : Starts (laid [] gap pad '\x7d' (part :: parts) rest) := (hmember.starts.intercalate _ _).append _
    apply scanObject_of_starts (hskip.trans hmore.skipWhitespace) hmore
    exact scanMembers_laid hgap hpad (.cons hmember hrest) (List.cons_ne_nil _ _) (length_le_laid _ _ _ _ _) rest

theorem scanObject_enclose {pairs : List (Str × Value)} {parts : List (List Char)}
    (h : List.Forall₂ (ReadsMember scan) pairs parts) (level : ℕ) (rest : List Char) :
    ∃ body, enclose level '\x7b' '\x7d' parts ++ rest = '\x7b' :: body ∧
      scanObject scan body = .ok (Value.ofPairs pairs, rest) := by
  refine ⟨_, enclose_append level '\x7b' '\x7d' parts rest, ?_⟩
  split_ifs
  · exact scanObject_laid blank_nil blank_nil blank_nil h rest
  · exact scanObject_laid (blank_newline _) (blank_newline _) (blank_newline _) h rest

end containers

end TrinityOS.Service
