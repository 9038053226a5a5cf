import TrinityOS.Service.JsonText
import Mathlib.Data.List.Chain

namespace TrinityOS.Service

def codeUnits (c : ℕ) : List ℕ :=
  if c < 0x10000 then [c]
  else [0xD800 + (c - 0x10000) / 0x400, 0xDC00 + (c - 0x10000) % 0x400]

theorem hexDigit?_digitChar {n : ℕ} (h : n < 16) : hexDigit? n.digitChar = some n := by
  have hall : ∀ n < 16, hexDigit? n.digitChar = some n := by decide
  exact hall n h

section units

variable {s rest : List Char} {units : List ℕ}

theorem scanUnits_hex4 {n : ℕ} (hn : n < 0x10000) (h : scanUnits s = .ok (units, rest)) :
    scanUnits ('\\' :: 'u' :: hex4 n ++ s) = .ok (n :: units, rest) := by
  have hdigits : hex4? (n / 4096 % 16).digitChar (n / 256 % 16).digitChar (n / 16 % 16).digitChar
      (n % 16).digitChar = some n := by
    rw [hex4?, hexDigit?_digitChar (by omega), hexDigit?_digitChar (by omega), hexDigit?_digitChar (by omega),
      hexDigit?_digitChar (by omega)]
    refine congrArg some ?_
    omega
  simp only [hex4, List.map_cons, List.map_nil, List.cons_append, List.nil_append]
  rw [scanUnits, hdigits]
  simp only [h]
  rfl

theorem scanUnits_plain {c : ℕ} (hquote : c ≠ 34) (hslash : c ≠ 92) (hascii : 32 ≤ c ∧ c ≤ 126)
    (h : scanUnits s = .ok (units, rest)) : scanUnits (Char.ofNat c :: s) = .ok (c :: units, rest) := by
  have hvalue : (Char.ofNat c).toNat = c := toNat_ofNat (.inl (by omega))
  have hne {d : Char} (hd : c ≠ d.toNat) : Char.ofNat c ≠ d := by
    rintro rfl
    exact hd hvalue.symm
  rw [scanUnits, if_neg (by omega), h, hvalue]
  · rfl
  · exact hne (d := '"') hquote
  · exact fun _ _ _ _ _ hc _ => hne (d := '\\') hslash hc
  · exact fun _ _ hc _ => hne (d := '\\') hslash hc

theorem scanUnits_escape {c : ℕ} (hc : c < 0x110000) (h : scanUnits s = .ok (units, rest)) :
    scanUnits (escape c ++ s) = .ok (codeUnits c ++ units, rest) := by
  unfold escape
  split_ifs with hquote hslash hlf hcr htab hff hbs hascii hbmp
  iterate 7
    · subst c
      simp [scanUnits, escape?, h, codeUnits]
  · rw [codeUnits, if_pos (by omega)]
    exact scanUnits_plain hquote hslash hascii h
  · rw [codeUnits, if_pos hbmp]
    exact scanUnits_hex4 hbmp h
  · rw [codeUnits, if_neg hbmp, List.append_assoc]
    exact scanUnits_hex4 (by omega) (scanUnits_hex4 (by omega) h)

theorem scanUnits_flatMap_escape {s : Str} (hs : ∀ c ∈ s, c < 0x110000) (rest : List Char) :
    scanUnits (s.flatMap escape ++ '"' :: rest) = .ok (s.flatMap codeUnits, rest) := by
  induction s with
  | nil => rw [List.flatMap_nil, List.flatMap_nil, List.nil_append, scanUnits]
  | cons c s ih =>
    obtain ⟨hc, hs⟩ := List.forall_mem_cons.mp hs
    rw [List.flatMap_cons, List.flatMap_cons, List.append_assoc]
    exact scanUnits_escape hc (ih hs)

theorem toNat_lt (c : Char) : c.toNat < 0x110000 := by
  rcases c.valid with h | ⟨-, h⟩
  · exact lt_trans h (by decide)
  · exact h

theorem hexDigit?_lt {c : Char} {n : ℕ} (h : hexDigit? c = some n) : n < 16 := by
  unfold hexDigit? at h
  split_ifs at h with hdigit hlower hupper
  · have hrange := Char.isDigit_iff_toNat.mp hdigit
    simp only [Char.reduceToNat] at hrange
    obtain rfl := Option.some.inj h
    omega
  · have hle : c.toNat ≤ 102 := hlower.2
    obtain rfl := Option.some.inj h
    omega
  · have hle : c.toNat ≤ 70 := hupper.2
    obtain rfl := Option.some.inj h
    omega

theorem hex4?_lt {a b c d : Char} {n : ℕ} (h : hex4? a b c d = some n) : n < 0x10000 := by
  simp only [hex4?, Option.bind_eq_bind, Option.bind_eq_some_iff, Option.pure_def, Option.some.injEq] at h
  obtain ⟨w, hw, x, hx, y, hy, z, hz, rfl⟩ := h
  have hw' := hexDigit?_lt hw
  have hx' := hexDigit?_lt hx
  have hy' := hexDigit?_lt hy
  have hz' := hexDigit?_lt hz
  omega

theorem escape?_lt {c : Char} {n : ℕ} (h : escape? c = some n) : n < 0x110000 := by
  unfold escape? at h
  split at h <;> cases h <;> decide

theorem scanUnits_lt (h : scanUnits s = .ok (units, rest)) : ∀ u ∈ units, u < 0x110000 := by
  induction s using scanUnits.induct generalizing units with
  | case1 => cases h
  | case2 s =>
    rw [scanUnits] at h
    obtain ⟨rfl, -⟩ := Prod.mk.inj (Except.ok.inj h)
    simp
  | case3 a b c d s unit hunit ih =>
    rw [scanUnits, hunit] at h
    obtain ⟨⟨more, tail⟩, hmore, h⟩ := Except.of_bind_eq_ok h
    obtain ⟨rfl, rfl⟩ := Prod.mk.inj (Except.ok.inj h)
    have hlt := hex4?_lt hunit
    exact List.forall_mem_cons.mpr ⟨by omega, ih hmore⟩
  | case4 a b c d s hunit =>
    rw [scanUnits, hunit] at h
    cases h
  | case5 c s hc unit hunit ih =>
    rw [scanUnits, hunit] at h
    · obtain ⟨⟨more, tail⟩, hmore, h⟩ := Except.of_bind_eq_ok h
      obtain ⟨rfl, rfl⟩ := Prod.mk.inj (Except.ok.inj h)
      exact List.forall_mem_cons.mpr ⟨escape?_lt hunit, ih hmore⟩
    · exact hc
  | case6 c s hc hunit =>
    rw [scanUnits, hunit] at h
    · cases h
    · exact hc
  | case7 c s hquote hhex hescape hcontrol =>
    rw [scanUnits, if_pos hcontrol] at h
    · cases h
    all_goals assumption
  | case8 c s hquote hhex hescape hcontrol ih =>
    rw [scanUnits, if_neg hcontrol] at h
    · obtain ⟨⟨more, tail⟩, hmore, h⟩ := Except.of_bind_eq_ok h
      obtain ⟨rfl, rfl⟩ := Prod.mk.inj (Except.ok.inj h)
      exact List.forall_mem_cons.mpr ⟨toNat_lt c, ih hmore⟩
    all_goals assumption

end units

structure Joined (s : Str) : Prop where
  lt : ∀ c ∈ s, c < 0x110000
  chain : s.IsChain fun high low => ¬(isHighSurrogate high ∧ isLowSurrogate low)

theorem isHighSurrogate_iff {c : ℕ} : isHighSurrogate c ↔ 0xD800 ≤ c ∧ c < 0xDC00 := by
  simp [isHighSurrogate]

theorem isLowSurrogate_iff {c : ℕ} : isLowSurrogate c ↔ 0xDC00 ≤ c ∧ c < 0xE000 := by
  simp [isLowSurrogate]

theorem joinSurrogates_cons {c : ℕ} {units : List ℕ}
    (h : ∀ u ∈ units.head?, ¬(isHighSurrogate c ∧ isLowSurrogate u)) :
    joinSurrogates (c :: units) = c :: joinSurrogates units := by
  cases units with
  | nil => rfl
  | cons u units => rw [joinSurrogates, if_neg (h u rfl)]

theorem head?_joinSurrogates {units : List ℕ} {c : ℕ} (h : c ∈ (joinSurrogates units).head?)
    (hlow : isLowSurrogate c) : c ∈ units.head? := by
  induction units using joinSurrogates.induct with
  | case1 high low rest hpair ih =>
    rw [joinSurrogates, if_pos hpair] at h
    obtain rfl := Option.some.inj h
    have := isLowSurrogate_iff.mp hlow
    omega
  | case2 high low rest hpair ih =>
    rw [joinSurrogates, if_neg hpair] at h
    exact h
  | case3 units hshort =>
    rw [joinSurrogates] at h
    · exact h
    · exact hshort

theorem Joined.cons {c : ℕ} {s : Str} (hc : c < 0x110000) (hs : Joined s)
    (h : ∀ u ∈ s.head?, ¬(isHighSurrogate c ∧ isLowSurrogate u)) : Joined (c :: s) :=
  ⟨List.forall_mem_cons.mpr ⟨hc, hs.lt⟩, List.isChain_cons.mpr ⟨h, hs.chain⟩⟩

theorem joined_joinSurrogates {units : List ℕ} (h : ∀ u ∈ units, u < 0x110000) : Joined (joinSurrogates units) := by
  induction units using joinSurrogates.induct with
  | case1 high low rest hpair ih =>
    obtain ⟨-, hrest⟩ := List.forall_mem_cons.mp h
    have hhigh := isHighSurrogate_iff.mp hpair.1
    have hlow := isLowSurrogate_iff.mp hpair.2
    rw [joinSurrogates, if_pos hpair]
    apply Joined.cons
    · omega
    · exact ih (List.forall_mem_cons.mp hrest).2
    · rintro u - ⟨hastral, -⟩
      have := isHighSurrogate_iff.mp hastral
      omega
  | case2 high low rest hpair ih =>
    obtain ⟨hlt, hrest⟩ := List.forall_mem_cons.mp h
    rw [joinSurrogates, if_neg hpair]
    refine (ih hrest).cons hlt fun u hu hmixed => ?_
    obtain rfl := Option.some.inj (head?_joinSurrogates hu hmixed.2)
    exact hpair hmixed
  | case3 units hshort =>
    rw [joinSurrogates]
    · refine ⟨h, ?_⟩
      cases units with
      | nil => exact .nil
      | cons c rest =>
        cases rest with
        | nil => exact .singleton c
        | cons d rest => exact absurd rfl (hshort c d rest)
    · exact hshort

theorem head?_flatMap_codeUnits {s : Str} {u : ℕ} (hs : ∀ c ∈ s, c < 0x110000)
    (h : u ∈ (s.flatMap codeUnits).head?) (hlow : isLowSurrogate u) : u ∈ s.head? := by
  cases s with
  | nil => exact h
  | cons c s =>
    rw [List.flatMap_cons, codeUnits] at h
    split_ifs at h with hc
    · exact h
    · have hu : 0xD800 + (c - 0x10000) / 0x400 = u := Option.some.inj h
      have hrange := isLowSurrogate_iff.mp hlow
      have hc' := hs c (by simp)
      omega

theorem Joined.join_codeUnits {s : Str} (h : Joined s) : joinSurrogates (s.flatMap codeUnits) = s := by
  induction s with
  | nil => rfl
  | cons c s ih =>
    obtain ⟨hc, hlt⟩ := List.forall_mem_cons.mp h.lt
    obtain ⟨hhead, hchain⟩ := List.isChain_cons.mp h.chain
    have ih := ih ⟨hlt, hchain⟩
    rw [List.flatMap_cons, codeUnits]
    split_ifs with hbmp
    · rw [List.singleton_append, joinSurrogates_cons, ih]
      intro u hu hmixed
      exact hhead u (head?_flatMap_codeUnits hlt hu hmixed.2) hmixed
    · have hhigh : isHighSurrogate (0xD800 + (c - 0x10000) / 0x400) := isHighSurrogate_iff.mpr (by omega)
      have hlow : isLowSurrogate (0xDC00 + (c - 0x10000) % 0x400) := isLowSurrogate_iff.mpr (by omega)
      rw [List.cons_append, List.singleton_append, joinSurrogates, if_pos ⟨hhigh, hlow⟩, ih]
      refine congrArg (· :: s) ?_
      omega

theorem scanString_dumpsString {s : Str} (h : Joined s) (rest : List Char) :
    scanString (s.flatMap escape ++ '"' :: rest) = .ok (s, rest) := by
  rw [scanString, scanUnits_flatMap_escape h.lt]
  exact congrArg (fun s => Except.ok (s, rest)) h.join_codeUnits

theorem joined_of_scanString {s rest : List Char} {text : Str} (h : scanString s = .ok (text, rest)) : Joined text := by
  obtain ⟨⟨units, tail⟩, hunits, h⟩ := Except.of_bind_eq_ok h
  obtain ⟨rfl, -⟩ := Prod.mk.inj (Except.ok.inj h)
  exact joined_joinSurrogates (scanUnits_lt hunits)

end TrinityOS.Service
