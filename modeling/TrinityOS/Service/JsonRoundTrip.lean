import TrinityOS.Service.LoadedValues

namespace TrinityOS.Service

section dumped

variable {depth : ℕ} {s rest : List Char} {v : Value} {c : Char}

theorem scanOnce_digit (hc : c.isDigit) : scanOnce depth (c :: s) = scanNumber false (c :: s) := by
  unfold scanOnce
  split
  case h_11 => rfl
  all_goals
    next heq =>
      obtain ⟨rfl, -⟩ := List.cons.inj heq
      exact absurd hc (by decide)

theorem scanOnce_minus (hc : c.isDigit) : scanOnce depth ('-' :: c :: s) = scanNumber true (c :: s) := by
  unfold scanOnce
  split
  case h_10 heq => rw [(List.cons.inj heq).2]
  case h_9 heq =>
    obtain ⟨rfl, -⟩ := List.cons.inj (List.cons.inj heq).2
    exact absurd hc (by decide)
  case h_11 h => exact absurd rfl (h _)
  all_goals
    next heq => exact absurd (List.cons.inj heq).1 (by decide)

theorem scanOnce_toString {n : ℤ} (hn : n.natAbs < 10 ^ intMaxStrDigits) (hrest : Delimited rest) :
    scanOnce depth ((toString n).toList ++ rest) = .ok (.int n, rest) := by
  have hread (k : ℕ) : ∃ c digits, Nat.toDigits 10 k = c :: digits ∧ c.isDigit := by
    obtain ⟨c, digits, hdigits⟩ := List.exists_cons_of_ne_nil (@Nat.toDigits_ne_nil k 10)
    refine ⟨c, digits, hdigits, ?_⟩
    exact Nat.isDigit_of_mem_toDigits (n := k) (b := 10) (by omega) (by omega) (by simp [hdigits])
  rw [Int.toString_eq_repr, Int.repr_eq_if]
  split_ifs with hneg
  · have hvalue : (n.toNat : ℤ) = n := Int.toNat_of_nonneg hneg
    obtain ⟨c, digits, hdigits, hc⟩ := hread n.toNat
    have hscan := scanNumber_toDigits (n := n.toNat) (by omega) false hrest
    rw [Nat.toList_repr]
    rw [if_neg Bool.false_ne_true, hvalue, hdigits, List.cons_append] at hscan
    rw [hdigits, List.cons_append, scanOnce_digit hc, hscan]
  · have hvalue : -((-n).toNat : ℤ) = n := by omega
    obtain ⟨c, digits, hdigits, hc⟩ := hread (-n).toNat
    have hscan := scanNumber_toDigits (n := (-n).toNat) (by omega) true hrest
    rw [String.toList_append, Nat.toList_repr, List.append_assoc]
    rw [if_pos rfl, hvalue, hdigits, List.cons_append] at hscan
    rw [hdigits, List.cons_append]
    exact (scanOnce_minus hc).trans hscan

theorem starts_of_scanOnce (h : scanOnce depth s = .ok (v, rest)) : Starts s := by
  cases s with
  | nil => cases depth <;> cases h
  | cons c s =>
    refine ⟨c, rfl, fun hc => ?_⟩
    simp only [List.mem_cons, List.not_mem_nil, or_false] at hc
    rcases hc with rfl | rfl | rfl | rfl | rfl | rfl <;> cases depth <;> cases h

structure Literal (x : Float) (text : List Char) : Prop where
  printable : ∀ c ∈ text, Printable c
  scan : ∀ depth rest, Delimited rest → scanOnce depth (text ++ rest) = .ok (.float x, rest)

theorem Numeral.literal {n : Numeral} {x : Float} {negative : Bool} (h : n.value negative = .ok (.float x)) :
    Literal x (if negative then '-' :: n.text else n.text) := by
  cases negative with
  | false =>
    refine ⟨n.printable_text, fun depth rest hrest => ?_⟩
    obtain ⟨c, s, hs, hc⟩ := n.text_cons rest
    rw [if_neg Bool.false_ne_true, hs, scanOnce_digit hc, ← hs]
    exact scanNumber_text hrest h
  | true =>
    refine ⟨List.forall_mem_cons.mpr ⟨by decide, n.printable_text⟩, fun depth rest hrest => ?_⟩
    obtain ⟨c, s, hs, hc⟩ := n.text_cons rest
    rw [if_pos rfl, List.cons_append, hs, scanOnce_minus hc, ← hs]
    exact scanNumber_text hrest h

theorem Readable.exists_literal {x : Float} (h : Readable x) : ∃ text, Literal x text := by
  obtain ⟨depth, s, rest, h⟩ := h
  have hnumber {negative : Bool} {s : List Char} (h : scanNumber negative s = .ok (.float x, rest)) :
      ∃ text, Literal x text := by
    obtain ⟨n, hn⟩ := exists_numeral h
    exact ⟨_, Numeral.literal hn⟩
  unfold scanOnce at h
  split at h
  · obtain ⟨r, -, h⟩ := Except.of_bind_eq_ok h
    cases h
  · cases depth with
    | zero => cases h
    | succ depth =>
      simp only [scanObject] at h
      split at h
      · cases h
      · obtain ⟨r, -, h⟩ := Except.of_bind_eq_ok h
        cases h
  · cases depth with
    | zero => cases h
    | succ depth =>
      simp only [scanArray] at h
      split at h
      · cases h
      · obtain ⟨r, -, h⟩ := Except.of_bind_eq_ok h
        cases h
  · cases h
  · cases h
  · cases h
  · cases h
    refine ⟨['N', 'a', 'N'], printable_of_all (by decide), fun depth rest _ => ?_⟩
    rw [List.cons_append, List.cons_append, List.cons_append, List.nil_append, scanOnce]
  · cases h
    refine ⟨['I', 'n', 'f', 'i', 'n', 'i', 't', 'y'], printable_of_all (by decide), fun depth rest _ => ?_⟩
    simp only [List.cons_append, List.nil_append, scanOnce]
  · cases h
    refine ⟨['-', 'I', 'n', 'f', 'i', 'n', 'i', 't', 'y'], printable_of_all (by decide), fun depth rest _ => ?_⟩
    simp only [List.cons_append, List.nil_append, scanOnce]
  · exact hnumber h
  · exact hnumber h

/-- What is documented of the text that `json` writes for a float: it is ASCII, and a literal of
that float, where any text denotes it. -/
structure RepresentsFloats (floatRepr : Float → List Char) : Prop where
  printable : ∀ x, ∀ c ∈ floatRepr x, Printable c
  literal : ∀ x, Readable x → Literal x (floatRepr x)

open Classical in
noncomputable def literalOf (x : Float) : List Char :=
  if h : Readable x then h.exists_literal.choose else []

theorem representsFloats_literalOf : RepresentsFloats literalOf := by
  have hliteral (x : Float) (h : Readable x) : Literal x (literalOf x) := by
    rw [literalOf, dif_pos h]
    exact h.exists_literal.choose_spec
  refine ⟨fun x => ?_, hliteral⟩
  by_cases h : Readable x
  · exact (hliteral x h).printable
  · rw [literalOf, dif_neg h]
    simp

variable {floatRepr : Float → List Char}

theorem forall₂_of_mapM' {ε α β : Type} {f : α → Except ε β} {R : α → β → Prop} {l : List α} {m : List β}
    (hm : l.mapM' f = .ok m) (h : ∀ a ∈ l, ∀ b, f a = .ok b → R a b) : List.Forall₂ R l m := by
  induction l generalizing m with
  | nil =>
    obtain rfl := Except.ok.inj hm
    exact .nil
  | cons a l ih =>
    obtain ⟨b, hb, hm⟩ := Except.of_bind_eq_ok hm
    obtain ⟨bs, hbs, hm⟩ := Except.of_bind_eq_ok hm
    obtain rfl := Except.ok.inj hm
    obtain ⟨ha, hl⟩ := List.forall_mem_cons.mp h
    exact .cons (ha b hb) (ih hbs hl)

theorem exists_mapM' {ε α β : Type} {f : α → Except ε β} {l : List α} (h : ∀ a ∈ l, ∃ b, f a = .ok b) :
    ∃ m, l.mapM' f = .ok m := by
  induction l with
  | nil => exact ⟨[], rfl⟩
  | cons a l ih =>
    obtain ⟨⟨b, hb⟩, hl⟩ := List.forall_mem_cons.mp h
    obtain ⟨bs, hbs⟩ := ih hl
    exact ⟨b :: bs, by rw [List.mapM'_cons, hb, hbs]; rfl⟩

def memberText (dump : Value → Except PyError (List Char)) (p : Str × Value) : Except PyError (List Char) := do
  let part ← dump p.2
  return dumpsString p.1 ++ ':' :: ' ' :: part

theorem dumpsElements_eq (items : List Value) :
    dumpsElements floatRepr items = items.mapM' (dumps floatRepr) := by
  induction items with
  | nil => rfl
  | cons v items ih => rw [dumpsElements, ih, List.mapM'_cons]

theorem dumpsMembers_eq (items : List (Str × Value)) :
    dumpsMembers floatRepr items = items.mapM' (memberText (dumps floatRepr)) := by
  induction items with
  | nil => rfl
  | cons p items ih =>
    rw [dumpsMembers, ih, List.mapM'_cons, memberText]
    cases dumps floatRepr p.2 <;> rfl

theorem dumpIndentedElements_eq (level : ℕ) (items : List Value) :
    dumpIndentedElements floatRepr level items = items.mapM' (dumpIndented floatRepr level) := by
  induction items with
  | nil => rfl
  | cons v items ih => rw [dumpIndentedElements, ih, List.mapM'_cons]

theorem dumpIndentedMembers_eq (level : ℕ) (items : List (Str × Value)) :
    dumpIndentedMembers floatRepr level items = items.mapM' (memberText (dumpIndented floatRepr level)) := by
  induction items with
  | nil => rfl
  | cons p items ih =>
    rw [dumpIndentedMembers, ih, List.mapM'_cons, memberText]
    cases dumpIndented floatRepr level p.2 <;> rfl

theorem forall₂_of_memberText {dump : Value → Except PyError (List Char)} {R : Str × Value → List Char → Prop}
    {items : List (Str × Value)} {parts : List (List Char)} (hparts : items.mapM' (memberText dump) = .ok parts)
    (h : ∀ p ∈ items, ∀ part, dump p.2 = .ok part → R p (dumpsString p.1 ++ ':' :: ' ' :: part)) :
    List.Forall₂ R items parts := by
  apply forall₂_of_mapM' hparts
  intro p hp text htext
  obtain ⟨part, hpart, htext⟩ := Except.of_bind_eq_ok htext
  obtain rfl := Except.ok.inj htext
  exact h p hp part hpart

theorem exists_memberText {dump : Value → Except PyError (List Char)} {items : List (Str × Value)}
    (h : ∀ p ∈ items, ∃ part, dump p.2 = .ok part) : ∃ parts, items.mapM' (memberText dump) = .ok parts := by
  apply exists_mapM'
  intro p hp
  obtain ⟨part, hpart⟩ := h p hp
  exact ⟨_, by rw [memberText, hpart]; rfl⟩

theorem Reads.of_scanOnce {part : List Char}
    (h : ∀ rest, Delimited rest → scanOnce depth (part ++ rest) = .ok (v, rest)) : Reads (scanOnce depth) v part := by
  have hend := h [] nofun
  rw [List.append_nil] at hend
  exact ⟨h, starts_of_scanOnce hend⟩

theorem Loadable.reads_dumps (hf : RepresentsFloats floatRepr) (h : Loadable depth v) {part : List Char}
    (hpart : dumps floatRepr v = .ok part) : Reads (scanOnce depth) v part := by
  apply Reads.of_scanOnce
  intro rest hrest
  induction h generalizing part rest with
  | none =>
    obtain rfl := Except.ok.inj hpart
    change scanOnce _ ('n' :: 'u' :: 'l' :: 'l' :: rest) = _
    rw [scanOnce]
  | bool b =>
    cases b with
    | true =>
      obtain rfl := Except.ok.inj hpart
      change scanOnce _ ('t' :: 'r' :: 'u' :: 'e' :: rest) = _
      rw [scanOnce]
    | false =>
      obtain rfl := Except.ok.inj hpart
      change scanOnce _ ('f' :: 'a' :: 'l' :: 's' :: 'e' :: rest) = _
      rw [scanOnce]
  | int hn =>
    obtain rfl := Except.ok.inj hpart
    exact scanOnce_toString hn hrest
  | float hx =>
    obtain rfl := Except.ok.inj hpart
    exact (hf.literal _ hx).scan _ rest hrest
  | str hs =>
    obtain rfl := Except.ok.inj hpart
    rw [dumpsString, List.cons_append, List.cons_append, List.append_assoc, scanOnce, List.singleton_append,
      scanString_dumpsString hs]
    rfl
  | list _ ih =>
    obtain ⟨parts, hparts, hpart⟩ := Except.of_bind_eq_ok hpart
    obtain rfl := Except.ok.inj hpart
    have hreads := forall₂_of_mapM' (dumpsElements_eq _ ▸ hparts) fun v hv part hpart =>
      Reads.of_scanOnce fun rest hrest => ih v hv hpart rest hrest
    have hscan := scanArray_laid blank_nil blank_space blank_nil hreads rest
    rw [List.cons_append, List.cons_append, List.append_assoc, scanOnce]
    exact hscan
  | dict hkeys hjoined _ ih =>
    obtain ⟨parts, hparts, hpart⟩ := Except.of_bind_eq_ok hpart
    obtain rfl := Except.ok.inj hpart
    have hreads := forall₂_of_memberText (R := ReadsMember (scanOnce _)) (dumpsMembers_eq _ ▸ hparts)
      fun p hp part hpart =>
        ⟨hjoined p hp, part, rfl, Reads.of_scanOnce fun rest hrest => ih p hp hpart rest hrest⟩
    have hscan := scanObject_laid blank_nil blank_space blank_nil hreads rest
    rw [Value.ofPairs_of_nodup hkeys] at hscan
    rw [List.cons_append, List.cons_append, List.append_assoc, scanOnce]
    exact hscan

theorem Loadable.reads (hf : RepresentsFloats floatRepr) (h : Loadable depth v) {level : ℕ} {part : List Char}
    (hpart : dumpIndented floatRepr level v = .ok part) : Reads (scanOnce depth) v part := by
  apply Reads.of_scanOnce
  intro rest hrest
  induction h generalizing level part rest with
  | none => exact (Loadable.none.reads_dumps hf hpart).scan rest hrest
  | bool b => exact ((Loadable.bool b).reads_dumps hf hpart).scan rest hrest
  | int hn => exact ((Loadable.int hn).reads_dumps hf hpart).scan rest hrest
  | float hx => exact ((Loadable.float hx).reads_dumps hf hpart).scan rest hrest
  | str hs => exact ((Loadable.str hs).reads_dumps hf hpart).scan rest hrest
  | list _ ih =>
    obtain ⟨parts, hparts, hpart⟩ := Except.of_bind_eq_ok hpart
    obtain rfl := Except.ok.inj hpart
    have hreads := forall₂_of_mapM' (dumpIndentedElements_eq _ _ ▸ hparts) fun v hv part hpart =>
      Reads.of_scanOnce fun rest hrest => ih v hv hpart rest hrest
    obtain ⟨body, hbody, hscan⟩ := scanArray_enclose hreads level rest
    rw [hbody, scanOnce]
    exact hscan
  | dict hkeys hjoined _ ih =>
    obtain ⟨parts, hparts, hpart⟩ := Except.of_bind_eq_ok hpart
    obtain rfl := Except.ok.inj hpart
    have hreads := forall₂_of_memberText (R := ReadsMember (scanOnce _)) (dumpIndentedMembers_eq _ _ ▸ hparts)
      fun p hp part hpart =>
        ⟨hjoined p hp, part, rfl, Reads.of_scanOnce fun rest hrest => ih p hp hpart rest hrest⟩
    obtain ⟨body, hbody, hscan⟩ := scanObject_enclose hreads level rest
    rw [hbody, scanOnce, hscan, Value.ofPairs_of_nodup hkeys]

theorem Loadable.exists_dump (h : Loadable depth v) (floatRepr : Float → List Char) (level : ℕ) :
    ∃ part, dumpIndented floatRepr level v = .ok part := by
  induction h generalizing level with
  | list _ ih =>
    obtain ⟨parts, hparts⟩ := exists_mapM' fun v hv => ih v hv (level + 1)
    rw [← dumpIndentedElements_eq] at hparts
    exact ⟨_, by rw [dumpIndented, hparts]; rfl⟩
  | dict _ _ _ ih =>
    obtain ⟨parts, hparts⟩ := exists_memberText fun p hp => ih p hp (level + 1)
    rw [← dumpIndentedMembers_eq] at hparts
    exact ⟨_, by rw [dumpIndented, hparts]; rfl⟩
  | bool b => cases b <;> exact ⟨_, rfl⟩
  | _ => exact ⟨_, rfl⟩

theorem forall_mem_of_forall₂ {α β : Type} {Q : β → Prop} {l : List α} {m : List β}
    (h : List.Forall₂ (fun _ b => Q b) l m) : ∀ b ∈ m, Q b := by
  induction h with
  | nil => simp
  | cons hb _ ih => exact List.forall_mem_cons.mpr ⟨hb, ih⟩

section layout

variable {P : Char → Prop}

theorem forall_mem_enclose (hP : ∀ c, Printable c → P c) (hlf : P '\n') {opening closing : Char}
    (hopening : Printable opening) (hclosing : Printable closing) {parts : List (List Char)}
    (h : ∀ part ∈ parts, ∀ c ∈ part, P c) (level : ℕ) : ∀ c ∈ enclose level opening closing parts, P c := by
  have hnewline (level : ℕ) : ∀ c ∈ newline level, P c := by
    refine List.forall_mem_cons.mpr ⟨hlf, fun c hc => ?_⟩
    rw [List.eq_of_mem_replicate hc]
    exact hP ' ' (by decide)
  have hsep : ∀ c ∈ ',' :: newline (level + 1), P c :=
    List.forall_mem_cons.mpr ⟨hP ',' (by decide), hnewline (level + 1)⟩
  unfold enclose
  split_ifs
  · exact forall_mem_wrap (s := []) (hP _ hopening) (hP _ hclosing) (by simp)
  · have hinner := List.forall_mem_append.mpr ⟨hnewline (level + 1), forall_mem_intercalate hsep h⟩
    exact forall_mem_wrap (hP _ hopening) (hP _ hclosing) (List.forall_mem_append.mpr ⟨hinner, hnewline level⟩)

theorem Loadable.covers (hP : Covers P floatRepr) (hlf : P '\n') (h : Loadable depth v) {level : ℕ} {part : List Char}
    (hpart : dumpIndented floatRepr level v = .ok part) : ∀ c ∈ part, P c := by
  induction h generalizing level part with
  | list _ ih =>
    obtain ⟨parts, hparts, hpart⟩ := Except.of_bind_eq_ok hpart
    obtain rfl := Except.ok.inj hpart
    have hall := forall₂_of_mapM' (R := fun _ part => ∀ c ∈ part, P c) (dumpIndentedElements_eq _ _ ▸ hparts)
      fun v hv part hpart => ih v hv hpart
    exact forall_mem_enclose hP.printable hlf (by decide) (by decide) (forall_mem_of_forall₂ hall) level
  | dict _ _ _ ih =>
    obtain ⟨parts, hparts, hpart⟩ := Except.of_bind_eq_ok hpart
    obtain rfl := Except.ok.inj hpart
    have hall := forall₂_of_memberText (R := fun _ part => ∀ c ∈ part, P c) (dumpIndentedMembers_eq _ _ ▸ hparts)
      fun p hp part hpart => hP.member (ih p hp hpart)
    exact forall_mem_enclose hP.printable hlf (by decide) (by decide) (forall_mem_of_forall₂ hall) level
  | _ => exact hP.of_dumps _ hpart

end layout

theorem loads_of_reads {text : List Char} (h : Reads (scanOnce depth) v text) (hascii : ∀ c ∈ text, c.toNat < 128) :
    loads depth text = .ok v := by
  have hbom : text.head? ≠ some '\uFEFF' := by
    intro hbom
    exact absurd (hascii _ (List.mem_of_mem_head? hbom)) (by decide)
  have hscan := h.scan [] nofun
  rw [List.append_nil] at hscan
  rw [loads, if_neg hbom, h.starts.skipWhitespace, hscan]
  rfl

theorem covers_ascii (hf : RepresentsFloats floatRepr) : Covers (fun c => c.toNat < 128) floatRepr := by
  have hlt (c : Char) (hc : Printable c) : c.toNat < 128 := lt_of_le_of_lt hc.2 (by decide)
  exact ⟨hlt, fun x c hc => hlt c (hf.printable x c hc)⟩

theorem Loadable.loads_dump (hf : RepresentsFloats floatRepr) (h : Loadable depth v) {text : List Char}
    (htext : dumpIndented floatRepr 0 v = .ok text) : loads depth text = .ok v ∧ ∀ c ∈ text, c.toNat < 128 := by
  have hascii := h.covers (covers_ascii hf) (by decide) htext
  exact ⟨loads_of_reads (h.reads hf htext) hascii, hascii⟩

theorem Loadable.loads_dumps (hf : RepresentsFloats floatRepr) (h : Loadable depth v) {text : List Char}
    (htext : dumps floatRepr v = .ok text) : loads depth text = .ok v :=
  loads_of_reads (h.reads_dumps hf htext) ((covers_ascii hf).of_dumps v htext)

end dumped

end TrinityOS.Service
