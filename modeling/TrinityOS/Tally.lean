import Mathlib.Algebra.BigOperators.Group.List.Basic
import Mathlib.Algebra.BigOperators.Group.List.Lemmas
import TrinityOS.Dict

namespace TrinityOS.Dict

variable {κ ν α : Type} [DecidableEq κ]

def values (d : Dict κ ν) : List ν := d.entries.map Prod.snd

/-- `for x in xs: d[key(x)] += weight(x)` -/
def tally [Add ν] (key : α → κ) (weight : α → ν) (d : Dict κ ν) (xs : List α) : Dict κ ν :=
  xs.foldl (fun d x => d.modify (key x) (· + weight x)) d

section entries

variable {d : Dict κ ν} {k : κ} {v : ν}

theorem lookupEntries_eq_some {es : List (κ × ν)} (hnodup : (es.map Prod.fst).Nodup) :
    lookupEntries k es = some v ↔ (k, v) ∈ es := by
  induction es with
  | nil => simp [lookupEntries]
  | cons e es ih =>
    obtain ⟨j, w⟩ := e
    obtain ⟨hj, htail⟩ := List.nodup_cons.mp hnodup
    by_cases hjk : j = k
    · subst hjk
      have hmem : (j, v) ∉ es := fun hm => hj (List.mem_map.mpr ⟨_, hm, rfl⟩)
      simp [lookupEntries, hmem, eq_comm]
    · simp [lookupEntries, hjk, Ne.symm hjk, ih htail]

theorem get?_eq_some : d.get? k = some v ↔ (k, v) ∈ d.entries := lookupEntries_eq_some d.nodup

theorem mem_keys : k ∈ d.keys ↔ k ∈ d := by
  simp [keys, mem_iff, get?_eq_some]

theorem map_get?_keys (d : Dict κ ν) : d.keys.map d.get? = d.values.map some := by
  rw [keys, values, List.map_map, List.map_map]
  apply List.map_congr_left
  intro e he
  exact get?_eq_some.mpr he

@[simp] theorem keys_modify (d : Dict κ ν) (k : κ) (f : ν → ν) : (d.modify k f).keys = d.keys := by
  unfold modify
  cases hv : d.get? k with
  | none => rfl
  | some v =>
    have hk : k ∈ d.entries.map Prod.fst := mem_keys.mpr (mem_of_get? hv)
    exact (keys_setEntries k (f v) d.entries).trans (if_pos hk)

theorem keys_set_of_not_mem (h : k ∉ d) (v : ν) : (d.set k v).keys = d.keys ++ [k] := by
  have hk : k ∉ d.entries.map Prod.fst := fun hm => h (mem_keys.mp hm)
  exact (keys_setEntries k v d.entries).trans (if_neg hk)

theorem map_values_eq_filterMap (d : Dict κ ν) (φ : ν → α) :
    d.values.map φ = d.keys.filterMap fun k => (d.get? k).map φ := by
  have h := congrArg (List.filterMap (Option.map φ)) (map_get?_keys d)
  rw [List.filterMap_map, List.filterMap_map] at h
  rw [← List.filterMap_eq_map]
  exact h.symm

theorem map_filterMap_get? {ks : List κ} {f : ν → α} {g : κ → α}
    (h : ∀ k ∈ ks, ∃ v, d.get? k = some v ∧ f v = g k) : (ks.filterMap d.get?).map f = ks.map g := by
  rw [List.map_filterMap, ← List.filterMap_eq_map]
  apply List.filterMap_congr
  intro k hk
  obtain ⟨v, hv, hfv⟩ := h k hk
  simp [hv, hfv]

end entries

section sums

variable {M : Type} [AddCommMonoid M] {d : Dict κ ν} {k : κ} {g : ν → M} {f : ν → ν} {w : M}

theorem sum_map_setEntries {es : List (κ × ν)} {v : ν} (h : lookupEntries k es = some v)
    (hf : g (f v) = g v + w) :
    ((setEntries k (f v) es).map fun e => g e.2).sum = (es.map fun e => g e.2).sum + w := by
  induction es with
  | nil => cases h
  | cons e es ih =>
    obtain ⟨j, u⟩ := e
    rw [lookupEntries] at h
    split_ifs at h with hj
    · obtain rfl := Option.some.inj h
      simp [setEntries, hj, hf, add_right_comm]
    · simp [setEntries, hj, ih h, add_assoc]

theorem sum_map_values_modify (hk : k ∈ d) (hf : ∀ v, g (f v) = g v + w) :
    ((d.modify k f).values.map g).sum = (d.values.map g).sum + w := by
  obtain ⟨v, hv⟩ := mem_iff.mp hk
  rw [modify, hv, values, values, List.map_map, List.map_map]
  exact sum_map_setEntries hv (hf v)

end sums

section tallies

variable [AddCommMonoid ν] {d : Dict κ ν} {k : κ}

variable {key : α → κ} {weight : α → ν} {xs : List α}

end tallies

end TrinityOS.Dict
