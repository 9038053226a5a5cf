import Mathlib.Data.List.Nodup
import Mathlib.Data.List.Basic
import Mathlib.Logic.Function.Basic

namespace TrinityOS

/-- A finite map that keeps the order in which its keys were first inserted:
assigning to a present key keeps its place, a new key goes to the end. -/
structure Dict (κ ν : Type) where
  entries : List (κ × ν)
  nodup : (entries.map Prod.fst).Nodup

namespace Dict

variable {κ ν : Type} [DecidableEq κ]

def lookupEntries (k : κ) : List (κ × ν) → Option ν
  | [] => none
  | (j, v) :: rest => if j = k then some v else lookupEntries k rest

def setEntries (k : κ) (v : ν) : List (κ × ν) → List (κ × ν)
  | [] => [(k, v)]
  | (j, w) :: rest => if j = k then (k, v) :: rest else (j, w) :: setEntries k v rest

theorem lookupEntries_setEntries (k j : κ) (v : ν) (es : List (κ × ν)) :
    lookupEntries j (setEntries k v es) = if j = k then some v else lookupEntries j es := by
  induction es with
  | nil => by_cases h : k = j <;> simp [lookupEntries, setEntries, h, eq_comm]
  | cons e es ih =>
    obtain ⟨i, w⟩ := e
    by_cases hi : i = k
    · subst hi
      by_cases h : i = j
      · simp [lookupEntries, setEntries, h]
      · simp [lookupEntries, setEntries, h, show ¬ j = i from fun he => h he.symm]
    · by_cases h : i = j
      · subst h; simp [lookupEntries, setEntries, hi]
      · simp [lookupEntries, setEntries, hi, h, ih]

theorem keys_setEntries (k : κ) (v : ν) (es : List (κ × ν)) :
    (setEntries k v es).map Prod.fst =
      if k ∈ es.map Prod.fst then es.map Prod.fst else es.map Prod.fst ++ [k] := by
  induction es with
  | nil => simp [setEntries]
  | cons e es ih =>
    obtain ⟨i, w⟩ := e
    by_cases hi : i = k
    · simp [setEntries, hi]
    · have hk : ¬ k = i := fun h => hi h.symm
      simp only [setEntries, hi, ↓reduceIte, List.map_cons, ih, List.mem_cons, hk, false_or]
      split_ifs <;> rfl

theorem lookupEntries_filter (k j : κ) (es : List (κ × ν)) :
    lookupEntries j (es.filter (fun e => e.1 ≠ k)) = if j = k then none else lookupEntries j es := by
  induction es with
  | nil => simp [lookupEntries]
  | cons e es ih =>
    obtain ⟨i, w⟩ := e
    by_cases hi : i = k
    · subst hi
      by_cases h : i = j
      · simpa [lookupEntries, h, eq_comm] using ih
      · simpa [lookupEntries, h] using ih
    · by_cases h : i = j
      · subst h; simp [lookupEntries, hi]
      · simpa [lookupEntries, hi, h] using ih

def empty : Dict κ ν := ⟨[], List.nodup_nil⟩

def get? (d : Dict κ ν) (k : κ) : Option ν := lookupEntries k d.entries

def getD (d : Dict κ ν) (k : κ) (v : ν) : ν := (d.get? k).getD v

def keys (d : Dict κ ν) : List κ := d.entries.map Prod.fst

def set (d : Dict κ ν) (k : κ) (v : ν) : Dict κ ν where
  entries := setEntries k v d.entries
  nodup := by
    rw [keys_setEntries]
    split_ifs with h
    · exact d.nodup
    · exact List.Nodup.append d.nodup (List.nodup_singleton k) (by simpa using h)

def del (d : Dict κ ν) (k : κ) : Dict κ ν where
  entries := d.entries.filter (fun e => e.1 ≠ k)
  nodup := d.nodup.sublist (List.filter_sublist.map Prod.fst)

/-- `d[k].field = ...` on a mutable value: nothing happens when `k` is absent. -/
def modify (d : Dict κ ν) (k : κ) (f : ν → ν) : Dict κ ν :=
  match d.get? k with
  | none => d
  | some v => d.set k (f v)

instance : Membership κ (Dict κ ν) := ⟨fun d k => (d.get? k).isSome⟩

instance (k : κ) (d : Dict κ ν) : Decidable (k ∈ d) := inferInstanceAs (Decidable ((d.get? k).isSome = true))

theorem mem_def {d : Dict κ ν} {k : κ} : k ∈ d ↔ (d.get? k).isSome := Iff.rfl

theorem mem_iff {d : Dict κ ν} {k : κ} : k ∈ d ↔ ∃ v, d.get? k = some v := Option.isSome_iff_exists

theorem not_mem_iff {d : Dict κ ν} {k : κ} : k ∉ d ↔ d.get? k = none := by
  rw [mem_def, Bool.not_eq_true, Option.isSome_eq_false_iff, Option.isNone_iff_eq_none]

theorem mem_of_get? {d : Dict κ ν} {k : κ} {v : ν} (h : d.get? k = some v) : k ∈ d := mem_iff.mpr ⟨v, h⟩

@[simp] theorem get?_empty (k : κ) : (empty : Dict κ ν).get? k = none := rfl

@[simp] theorem not_mem_empty (k : κ) : k ∉ (empty : Dict κ ν) := not_mem_iff.mpr rfl

theorem get?_set (d : Dict κ ν) (k j : κ) (v : ν) :
    (d.set k v).get? j = if j = k then some v else d.get? j := lookupEntries_setEntries k j v d.entries

@[simp] theorem get?_set_self (d : Dict κ ν) (k : κ) (v : ν) : (d.set k v).get? k = some v := by
  rw [get?_set, if_pos rfl]

theorem get?_set_of_ne (d : Dict κ ν) {k j : κ} (v : ν) (h : j ≠ k) : (d.set k v).get? j = d.get? j := by
  rw [get?_set, if_neg h]

theorem get?_del (d : Dict κ ν) (k j : κ) :
    (d.del k).get? j = if j = k then none else d.get? j := lookupEntries_filter k j d.entries

@[simp] theorem get?_del_self (d : Dict κ ν) (k : κ) : (d.del k).get? k = none := by
  rw [get?_del, if_pos rfl]

theorem get?_del_of_ne (d : Dict κ ν) {k j : κ} (h : j ≠ k) : (d.del k).get? j = d.get? j := by
  rw [get?_del, if_neg h]

theorem get?_set_eq_update (d : Dict κ ν) (k : κ) (v : ν) :
    (d.set k v).get? = Function.update d.get? k (some v) := by
  funext j
  rw [get?_set, Function.update_apply]

theorem get?_del_eq_update (d : Dict κ ν) (k : κ) : (d.del k).get? = Function.update d.get? k none := by
  funext j
  rw [get?_del, Function.update_apply]

theorem get?_modify (d : Dict κ ν) (k j : κ) (f : ν → ν) :
    (d.modify k f).get? j = if j = k then (d.get? k).map f else d.get? j := by
  unfold modify
  cases h : d.get? k with
  | none =>
    by_cases hj : j = k
    · subst hj; simp [h]
    · simp [hj]
  | some v => simp [get?_set]

@[simp] theorem get?_modify_self (d : Dict κ ν) (k : κ) (f : ν → ν) :
    (d.modify k f).get? k = (d.get? k).map f := by
  rw [get?_modify, if_pos rfl]

theorem get?_modify_of_ne (d : Dict κ ν) {k j : κ} (f : ν → ν) (h : j ≠ k) :
    (d.modify k f).get? j = d.get? j := by
  rw [get?_modify, if_neg h]

theorem mem_set {d : Dict κ ν} {k j : κ} {v : ν} : j ∈ d.set k v ↔ j = k ∨ j ∈ d := by
  by_cases h : j = k <;> simp [mem_def, get?_set, h]

theorem mem_del {d : Dict κ ν} {k j : κ} : j ∈ d.del k ↔ j ≠ k ∧ j ∈ d := by
  by_cases h : j = k <;> simp [mem_def, get?_del, h]

@[simp] theorem mem_modify {d : Dict κ ν} {k j : κ} {f : ν → ν} : j ∈ d.modify k f ↔ j ∈ d := by
  by_cases h : j = k
  · subst h; simp [mem_def]
  · simp [mem_def, get?_modify_of_ne d f h]

theorem getD_of_get? {d : Dict κ ν} {k : κ} {v : ν} (h : d.get? k = some v) (w : ν) : d.getD k w = v := by
  rw [getD, h, Option.getD_some]

theorem getD_of_not_mem {d : Dict κ ν} {k : κ} (h : k ∉ d) (w : ν) : d.getD k w = w := by
  rw [getD, not_mem_iff.mp h, Option.getD_none]

theorem getD_set (d : Dict κ ν) (k j : κ) (v w : ν) :
    (d.set k v).getD j w = if j = k then v else d.getD j w := by
  rw [getD, get?_set]
  split_ifs <;> rfl

theorem getD_del (d : Dict κ ν) (k j : κ) (w : ν) :
    (d.del k).getD j w = if j = k then w else d.getD j w := by
  rw [getD, get?_del]
  split_ifs <;> rfl

theorem getD_set_eq_update (d : Dict κ ν) (k : κ) (v w : ν) :
    ((d.set k v).getD · w) = Function.update (d.getD · w) k v := by
  funext j
  rw [getD_set, Function.update_apply]

def ofList (es : List (κ × ν)) : Dict κ ν := es.foldl (fun d e => d.set e.1 e.2) empty

def delAll (d : Dict κ ν) (ks : List κ) : Dict κ ν := ks.foldl del d

theorem get?_delAll (d : Dict κ ν) (ks : List κ) (j : κ) :
    (d.delAll ks).get? j = if j ∈ ks then none else d.get? j := by
  induction ks generalizing d with
  | nil => rfl
  | cons k ks ih =>
    change ((d.del k).delAll ks).get? j = _
    rw [ih]
    by_cases hk : j = k
    · subst hk; simp
    · simp [hk, get?_del_of_ne d hk]

end Dict

end TrinityOS
