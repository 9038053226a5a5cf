import TrinityOS.Service.JsonContainers

namespace TrinityOS.Service

def Readable (x : Float) : Prop := ∃ depth s rest, scanOnce depth s = .ok (.float x, rest)

inductive Loadable : ℕ → Value → Prop
  | none {depth : ℕ} : Loadable depth .none
  | bool {depth : ℕ} (b : Bool) : Loadable depth (.bool b)
  | int {depth : ℕ} {n : ℤ} (h : n.natAbs < 10 ^ intMaxStrDigits) : Loadable depth (.int n)
  | float {depth : ℕ} {x : Float} (h : Readable x) : Loadable depth (.float x)
  | str {depth : ℕ} {s : Str} (h : Joined s) : Loadable depth (.str s)
  | list {depth : ℕ} {items : List Value} (h : ∀ v ∈ items, Loadable depth v) : Loadable (depth + 1) (.list items)
  | dict {depth : ℕ} {items : List (Str × Value)} (hkeys : (items.map Prod.fst).Nodup)
      (hjoined : ∀ p ∈ items, Joined p.1) (h : ∀ p ∈ items, Loadable depth p.2) :
      Loadable (depth + 1) (.dict items)

section scanned

variable {scan : List Char → Except PyError (Value × List Char)} {P : Value → Prop} {s rest : List Char} {v : Value}

theorem forall_of_scanElements (hscan : ∀ s v rest, scan s = .ok (v, rest) → P v) {n : ℕ} {vs : List Value}
    (h : scanElements scan n s = .ok (vs, rest)) : ∀ v ∈ vs, P v := by
  induction n generalizing s vs with
  | zero => cases h
  | succ n ih =>
    obtain ⟨⟨v, after⟩, hv, h⟩ := Except.of_bind_eq_ok h
    simp only at h
    split at h
    · obtain ⟨⟨more, tail⟩, hmore, h⟩ := Except.of_bind_eq_ok h
      obtain ⟨rfl, rfl⟩ := Prod.mk.inj (Except.ok.inj h)
      exact List.forall_mem_cons.mpr ⟨hscan _ _ _ hv, ih hmore⟩
    · obtain ⟨rfl, -⟩ := Prod.mk.inj (Except.ok.inj h)
      exact List.forall_mem_singleton.mpr (hscan _ _ _ hv)
    · cases h

theorem forall_of_scanMembers (hscan : ∀ s v rest, scan s = .ok (v, rest) → P v) {n : ℕ} {pairs : List (Str × Value)}
    (h : scanMembers scan n s = .ok (pairs, rest)) : ∀ p ∈ pairs, Joined p.1 ∧ P p.2 := by
  induction n generalizing s pairs with
  | zero => cases h
  | succ n ih =>
    unfold scanMembers at h
    split at h
    · next n' s hn =>
      obtain rfl := Nat.succ.inj hn
      obtain ⟨⟨key, after⟩, hkey, h⟩ := Except.of_bind_eq_ok h
      simp only at h
      split at h
      · obtain ⟨⟨v, after⟩, hv, h⟩ := Except.of_bind_eq_ok h
        have hmember : Joined key ∧ P v := ⟨joined_of_scanString hkey, hscan _ _ _ hv⟩
        simp only at h
        split at h
        · obtain ⟨⟨more, tail⟩, hmore, h⟩ := Except.of_bind_eq_ok h
          obtain ⟨rfl, rfl⟩ := Prod.mk.inj (Except.ok.inj h)
          exact List.forall_mem_cons.mpr ⟨hmember, ih hmore⟩
        · obtain ⟨rfl, -⟩ := Prod.mk.inj (Except.ok.inj h)
          exact List.forall_mem_singleton.mpr hmember
        · cases h
      · cases h
    · cases h

end scanned

namespace Value

variable {key : Str} {value : Value} {items pairs : List (Str × Value)} {p : Str × Value}

theorem mem_insert (h : p ∈ insert key value items) : p = (key, value) ∨ p ∈ items := by
  induction items with
  | nil => exact .inl (List.mem_singleton.mp h)
  | cons item items ih =>
    rw [insert] at h
    split_ifs at h with hkey
    · rcases List.mem_cons.mp h with rfl | h
      · exact .inl (by rw [hkey])
      · exact .inr (List.mem_cons_of_mem _ h)
    · rcases List.mem_cons.mp h with rfl | h
      · exact .inr List.mem_cons_self
      · exact (ih h).imp_right (List.mem_cons_of_mem _)

theorem insert_of_mem (h : key ∈ items.map Prod.fst) :
    (insert key value items).map Prod.fst = items.map Prod.fst := by
  induction items with
  | nil => cases h
  | cons item items ih =>
    rw [insert]
    by_cases hkey : item.1 = key
    · rw [if_pos hkey, List.map_cons, List.map_cons]
    · rw [if_neg hkey, List.map_cons, List.map_cons, ih ((List.mem_cons.mp h).resolve_left (Ne.symm hkey))]

theorem insert_of_not_mem (h : key ∉ items.map Prod.fst) : insert key value items = items ++ [(key, value)] := by
  induction items with
  | nil => rfl
  | cons item items ih =>
    obtain ⟨hne, hrest⟩ := List.ne_and_not_mem_of_not_mem_cons h
    rw [insert, if_neg (Ne.symm hne), ih hrest, List.cons_append]

theorem nodup_insert (h : (items.map Prod.fst).Nodup) (key : Str) (value : Value) :
    ((insert key value items).map Prod.fst).Nodup := by
  by_cases hkey : key ∈ items.map Prod.fst
  · rw [insert_of_mem hkey]
    exact h
  · rw [insert_of_not_mem hkey, List.map_append, List.map_singleton, ← List.concat_eq_append]
    exact h.concat hkey

theorem nodup_foldl_insert (h : (items.map Prod.fst).Nodup) :
    ((pairs.foldl (fun items p => insert p.1 p.2 items) items).map Prod.fst).Nodup := by
  induction pairs generalizing items with
  | nil => exact h
  | cons p pairs ih => exact ih (nodup_insert h p.1 p.2)

theorem mem_foldl_insert (h : p ∈ pairs.foldl (fun items p => insert p.1 p.2 items) items) : p ∈ pairs ∨ p ∈ items := by
  induction pairs generalizing items with
  | nil => exact .inr h
  | cons q pairs ih =>
    rcases ih h with h | h
    · exact .inl (List.mem_cons_of_mem _ h)
    · rcases mem_insert h with rfl | h
      · exact .inl List.mem_cons_self
      · exact .inr h

theorem foldl_insert_of_nodup (h : ((items ++ pairs).map Prod.fst).Nodup) :
    pairs.foldl (fun items p => insert p.1 p.2 items) items = items ++ pairs := by
  induction pairs generalizing items with
  | nil => rw [List.foldl_nil, List.append_nil]
  | cons p pairs ih =>
    have hp : p.1 ∉ items.map Prod.fst := by
      rw [List.map_append] at h
      exact fun hmem => List.disjoint_of_nodup_append h hmem List.mem_cons_self
    rw [List.append_cons] at h ⊢
    rw [List.foldl_cons, insert_of_not_mem hp, ih h]

theorem ofPairs_of_nodup (h : (pairs.map Prod.fst).Nodup) : ofPairs pairs = .dict pairs := by
  rw [ofPairs, foldl_insert_of_nodup (by exact h), List.nil_append]

end Value

section loadable

variable {scan : List Char → Except PyError (Value × List Char)} {depth : ℕ} {s rest : List Char} {v : Value}

theorem loadable_of_scanArray (hscan : ∀ s v rest, scan s = .ok (v, rest) → Loadable depth v)
    (h : scanArray scan s = .ok (v, rest)) : Loadable (depth + 1) v := by
  unfold scanArray at h
  split at h
  · obtain ⟨rfl, -⟩ := Prod.mk.inj (Except.ok.inj h)
    exact .list (by simp)
  · obtain ⟨⟨vs, tail⟩, hvs, h⟩ := Except.of_bind_eq_ok h
    obtain ⟨rfl, rfl⟩ := Prod.mk.inj (Except.ok.inj h)
    exact .list (forall_of_scanElements hscan hvs)

theorem loadable_of_scanObject (hscan : ∀ s v rest, scan s = .ok (v, rest) → Loadable depth v)
    (h : scanObject scan s = .ok (v, rest)) : Loadable (depth + 1) v := by
  unfold scanObject at h
  split at h
  · obtain ⟨rfl, -⟩ := Prod.mk.inj (Except.ok.inj h)
    exact .dict .nil (by simp) (by simp)
  · obtain ⟨⟨pairs, tail⟩, hpairs, h⟩ := Except.of_bind_eq_ok h
    obtain ⟨rfl, rfl⟩ := Prod.mk.inj (Except.ok.inj h)
    have hmem {p : Str × Value} (hp : p ∈ pairs.foldl (fun items p => Value.insert p.1 p.2 items) []) :=
      forall_of_scanMembers hscan hpairs p ((Value.mem_foldl_insert hp).resolve_right List.not_mem_nil)
    exact .dict (Value.nodup_foldl_insert .nil) (fun p hp => (hmem hp).1) fun p hp => (hmem hp).2

end loadable

theorem Loadable.of_scanNumber {depth : ℕ} {negative : Bool} {s rest : List Char} {v : Value}
    (h : scanNumber negative s = .ok (v, rest)) (hfloat : ∀ x, v = .float x → Readable x) : Loadable depth v := by
  obtain ⟨n, hn⟩ := exists_numeral h
  rcases n.value_cases hn with ⟨k, rfl, hk⟩ | ⟨x, rfl⟩
  · exact .int hk
  · exact .float (hfloat x rfl)

theorem loadable_of_scanOnce {depth : ℕ} {s rest : List Char} {v : Value} (h : scanOnce depth s = .ok (v, rest)) :
    Loadable depth v := by
  induction depth using Nat.strongRecOn generalizing s v rest with
  | ind depth ih =>
    have hfloat : ∀ x, v = .float x → Readable x := by
      rintro x rfl
      exact ⟨depth, s, rest, h⟩
    unfold scanOnce at h
    split at h
    · obtain ⟨⟨text, tail⟩, htext, h⟩ := Except.of_bind_eq_ok h
      obtain ⟨rfl, rfl⟩ := Prod.mk.inj (Except.ok.inj h)
      exact .str (joined_of_scanString htext)
    · next s =>
      cases depth with
      | zero => cases h
      | succ depth => exact loadable_of_scanObject (fun s v rest h => ih depth (by omega) h) h
    · next s =>
      cases depth with
      | zero => cases h
      | succ depth => exact loadable_of_scanArray (fun s v rest h => ih depth (by omega) h) h
    · obtain ⟨rfl, -⟩ := Prod.mk.inj (Except.ok.inj h)
      exact .none
    · obtain ⟨rfl, -⟩ := Prod.mk.inj (Except.ok.inj h)
      exact .bool true
    · obtain ⟨rfl, -⟩ := Prod.mk.inj (Except.ok.inj h)
      exact .bool false
    · obtain ⟨rfl, -⟩ := Prod.mk.inj (Except.ok.inj h)
      exact .float (hfloat _ rfl)
    · obtain ⟨rfl, -⟩ := Prod.mk.inj (Except.ok.inj h)
      exact .float (hfloat _ rfl)
    · obtain ⟨rfl, -⟩ := Prod.mk.inj (Except.ok.inj h)
      exact .float (hfloat _ rfl)
    · exact .of_scanNumber h hfloat
    · exact .of_scanNumber h hfloat

theorem Loadable.of_loads {depth : ℕ} {s : List Char} {v : Value} (h : loads depth s = .ok v) : Loadable depth v := by
  unfold loads at h
  split_ifs at h
  obtain ⟨⟨w, rest⟩, hscan, h⟩ := Except.of_bind_eq_ok h
  simp only at h
  split_ifs at h
  obtain rfl := Except.ok.inj h
  exact loadable_of_scanOnce hscan

end TrinityOS.Service
