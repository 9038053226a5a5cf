import TrinityOS.Service.Json
import TrinityOS.PythonValue
import TrinityOS.Programs
import Mathlib.Data.Char

namespace TrinityOS.Service

def Printable (c : Char) : Prop := 32 ≤ c.toNat ∧ c.toNat ≤ 126

instance (c : Char) : Decidable (Printable c) := inferInstanceAs (Decidable (_ ∧ _))

theorem printable_of_all {s : List Char} (h : s.all fun c => Printable c) : ∀ c ∈ s, Printable c :=
  fun c hc => of_decide_eq_true (List.all_eq_true.mp h c hc)

theorem toNat_ofNat {n : ℕ} (h : n.isValidChar) : (Char.ofNat n).toNat = n := by
  rw [Char.ofNat, dif_pos h]
  rfl

theorem digitChar_printable {n : ℕ} (h : n < 16) : Printable n.digitChar := by
  have hall : ∀ n < 16, Printable n.digitChar := by decide
  exact hall n h

theorem hex4_printable (n : ℕ) : ∀ c ∈ hex4 n, Printable c := by
  simp only [hex4, List.map_cons, List.map_nil, List.forall_mem_cons, List.not_mem_nil, false_implies,
    implies_true, and_true]
  refine ⟨?_, ?_, ?_, ?_⟩ <;> exact digitChar_printable (by omega)

theorem unicodeEscape_printable (n : ℕ) : ∀ c ∈ '\\' :: 'u' :: hex4 n, Printable c := by
  simp only [List.forall_mem_cons]
  exact ⟨by decide, by decide, hex4_printable n⟩

theorem escape_printable (n : ℕ) : ∀ c ∈ escape n, Printable c := by
  unfold escape
  split_ifs with _ _ _ _ _ _ _ hascii hbmp
  iterate 7 exact printable_of_all (by decide)
  · intro c hc
    obtain rfl := List.mem_singleton.mp hc
    have hvalid : n.isValidChar := .inl (by omega)
    rw [Printable, toNat_ofNat hvalid]
    exact hascii
  · exact unicodeEscape_printable n
  · intro c hc
    rcases List.mem_append.mp hc with hc | hc
    · exact unicodeEscape_printable _ c hc
    · exact unicodeEscape_printable _ c hc

structure Covers (P : Char → Prop) (floatRepr : Float → List Char) : Prop where
  printable : ∀ c, Printable c → P c
  float : ∀ x, ∀ c ∈ floatRepr x, P c

section dumps

variable {P : Char → Prop} {floatRepr : Float → List Char}

theorem forall_mem_intercalate {parts : List (List Char)} {sep : List Char} (hsep : ∀ c ∈ sep, P c)
    (hparts : ∀ part ∈ parts, ∀ c ∈ part, P c) : ∀ c ∈ sep.intercalate parts, P c := by
  induction parts with
  | nil => simp
  | cons part parts ih =>
    obtain ⟨hpart, hrest⟩ := List.forall_mem_cons.mp hparts
    cases parts with
    | nil =>
      rw [List.intercalate_singleton]
      exact hpart
    | cons next parts =>
      rw [List.intercalate_cons_cons]
      intro c hc
      rcases List.mem_append.mp hc with hc | hc
      · rcases List.mem_append.mp hc with hc | hc
        · exact hpart c hc
        · exact hsep c hc
      · exact ih hrest c hc

theorem forall_mem_wrap {opening closing : Char} {s : List Char} (hopening : P opening) (hclosing : P closing)
    (hs : ∀ c ∈ s, P c) : ∀ c ∈ opening :: s ++ [closing], P c := by
  intro c hc
  rcases List.mem_append.mp hc with hc | hc
  · exact List.forall_mem_cons.mpr ⟨hopening, hs⟩ c hc
  · obtain rfl := List.mem_singleton.mp hc
    exact hclosing

theorem Covers.literal (hP : Covers P floatRepr) {s : List Char} (h : s.all fun c => Printable c) : ∀ c ∈ s, P c :=
  fun c hc => hP.printable c (printable_of_all h c hc)

theorem Covers.toString_int (hP : Covers P floatRepr) (n : ℤ) : ∀ c ∈ (toString n).toList, P c := by
  intro c hc
  apply hP.printable
  rcases mem_toString_int hc with hdigit | rfl
  · have hrange := Char.isDigit_iff_toNat.mp hdigit
    simp only [Char.reduceToNat] at hrange
    exact ⟨by omega, by omega⟩
  · decide

theorem Covers.of_dumpsString (hP : Covers P floatRepr) (s : Str) : ∀ c ∈ dumpsString s, P c := by
  apply forall_mem_wrap (hP.printable _ (by decide)) (hP.printable _ (by decide))
  intro c hc
  obtain ⟨n, -, hn⟩ := List.mem_flatMap.mp hc
  exact hP.printable c (escape_printable n c hn)

theorem Covers.member (hP : Covers P floatRepr) {s : Str} {part : List Char} (h : ∀ c ∈ part, P c) :
    ∀ c ∈ dumpsString s ++ ':' :: ' ' :: part, P c := by
  intro c hc
  rcases List.mem_append.mp hc with hc | hc
  · exact hP.of_dumpsString s c hc
  · have hspaced := List.forall_mem_cons.mpr ⟨hP.printable ' ' (by decide), h⟩
    exact List.forall_mem_cons.mpr ⟨hP.printable ':' (by decide), hspaced⟩ c hc

mutual

theorem Covers.of_dumps (hP : Covers P floatRepr) (v : Value) {text : List Char}
    (h : dumps floatRepr v = .ok text) : ∀ c ∈ text, P c := by
  cases v with
  | none =>
    obtain rfl := Except.ok.inj h
    exact hP.literal (by decide)
  | bool b =>
    cases b with
    | true =>
      obtain rfl := Except.ok.inj h
      exact hP.literal (by decide)
    | false =>
      obtain rfl := Except.ok.inj h
      exact hP.literal (by decide)
  | int n =>
    obtain rfl := Except.ok.inj h
    exact hP.toString_int n
  | float x =>
    obtain rfl := Except.ok.inj h
    exact hP.float x
  | str s =>
    obtain rfl := Except.ok.inj h
    exact hP.of_dumpsString s
  | list items =>
    obtain ⟨parts, hparts, h⟩ := Except.of_bind_eq_ok h
    obtain rfl := Except.ok.inj h
    apply forall_mem_wrap (hP.printable _ (by decide)) (hP.printable _ (by decide))
    exact forall_mem_intercalate (hP.literal (by decide)) (hP.of_dumpsElements items hparts)
  | dict items =>
    obtain ⟨parts, hparts, h⟩ := Except.of_bind_eq_ok h
    obtain rfl := Except.ok.inj h
    apply forall_mem_wrap (hP.printable _ (by decide)) (hP.printable _ (by decide))
    exact forall_mem_intercalate (hP.literal (by decide)) (hP.of_dumpsMembers items hparts)
  | object id => cases h

theorem Covers.of_dumpsElements (hP : Covers P floatRepr) (items : List Value) {parts : List (List Char)}
    (h : dumpsElements floatRepr items = .ok parts) : ∀ part ∈ parts, ∀ c ∈ part, P c := by
  cases items with
  | nil =>
    obtain rfl := Except.ok.inj h
    simp
  | cons v items =>
    obtain ⟨part, hpart, h⟩ := Except.of_bind_eq_ok h
    obtain ⟨rest, hrest, h⟩ := Except.of_bind_eq_ok h
    obtain rfl := Except.ok.inj h
    exact List.forall_mem_cons.mpr ⟨hP.of_dumps v hpart, hP.of_dumpsElements items hrest⟩

theorem Covers.of_dumpsMembers (hP : Covers P floatRepr) (items : List (Str × Value)) {parts : List (List Char)}
    (h : dumpsMembers floatRepr items = .ok parts) : ∀ part ∈ parts, ∀ c ∈ part, P c := by
  cases items with
  | nil =>
    obtain rfl := Except.ok.inj h
    simp
  | cons item items =>
    obtain ⟨key, v⟩ := item
    obtain ⟨part, hpart, h⟩ := Except.of_bind_eq_ok h
    obtain ⟨rest, hrest, h⟩ := Except.of_bind_eq_ok h
    obtain rfl := Except.ok.inj h
    refine List.forall_mem_cons.mpr ⟨?_, hP.of_dumpsMembers items hrest⟩
    exact hP.member (hP.of_dumps v hpart)

end

end dumps

end TrinityOS.Service
