import Mathlib.Algebra.BigOperators.Group.List.Basic
import Mathlib.Algebra.Order.BigOperators.Group.List
import Mathlib.Algebra.Order.Ring.Int
import Mathlib.Data.List.Induction
import Mathlib.Data.List.Nodup
import Mathlib.Logic.Function.Basic

namespace TrinityOS

structure OwnedStore (κ ι ρ : Type) where
  items : κ → Option ρ
  held : ι → List κ

namespace OwnedStore

variable {κ ι ρ : Type} {owner : ρ → ι} {s s' : OwnedStore κ ι ρ} {p q : ι} {k : κ} {x : ρ}

structure Sound (owner : ρ → ι) (s : OwnedStore κ ι ρ) : Prop where
  nodup : ∀ p, (s.held p).Nodup
  owned : ∀ p, ∀ k ∈ s.held p, ∃ x, s.items k = some x ∧ owner x = p

def Complete (owner : ρ → ι) (s : OwnedStore κ ι ρ) : Prop :=
  ∀ k x, s.items k = some x → k ∈ s.held (owner x)

def empty : OwnedStore κ ι ρ := ⟨fun _ => none, fun _ => []⟩

theorem Sound.empty : Sound owner (empty : OwnedStore κ ι ρ) :=
  ⟨fun _ => List.nodup_nil, fun _ _ hk => nomatch hk⟩

theorem Complete.empty : Complete owner (empty : OwnedStore κ ι ρ) := fun _ _ hk => nomatch hk

theorem Sound.not_held_of_none (h : Sound owner s) (hk : s.items k = none) (q : ι) : k ∉ s.held q := by
  intro hm
  obtain ⟨y, hy, -⟩ := h.owned q k hm
  rw [hk] at hy
  cases hy

variable [DecidableEq κ] [DecidableEq ι]

def acquire (p : ι) (k : κ) (x : ρ) (s : OwnedStore κ ι ρ) : OwnedStore κ ι ρ where
  items := Function.update s.items k (some x)
  held := Function.update s.held p (s.held p ++ [k])

def release (p : ι) (k : κ) (s : OwnedStore κ ι ρ) : OwnedStore κ ι ρ where
  items := Function.update s.items k none
  held := Function.update s.held p ((s.held p).erase k)

def install (p : ι) (kxs : List (κ × ρ)) (s : OwnedStore κ ι ρ) : OwnedStore κ ι ρ where
  items := kxs.foldl (fun items kx => Function.update items kx.1 (some kx.2)) s.items
  held := Function.update s.held p (kxs.map Prod.fst)

def dispose (p : ι) (s : OwnedStore κ ι ρ) : OwnedStore κ ι ρ where
  items k := if k ∈ s.held p then none else s.items k
  held := Function.update s.held p []

inductive Step (owner : ρ → ι) (s : OwnedStore κ ι ρ) (p : ι) : OwnedStore κ ι ρ → Prop
  | stay : Step owner s p s
  | acquire (k : κ) (x : ρ) (hk : s.items k = none) (hx : owner x = p) : Step owner s p (s.acquire p k x)
  | release (k : κ) (x : ρ) (hk : s.items k = some x) (hx : owner x = p) : Step owner s p (s.release p k)
  | install (kxs : List (κ × ρ)) (hnodup : (kxs.map Prod.fst).Nodup)
      (hfresh : ∀ kx ∈ kxs, s.items kx.1 = none) (howner : ∀ kx ∈ kxs, owner kx.2 = p) :
      Step owner s p (s.install p kxs)
  | dispose : Step owner s p (s.dispose p)

@[simp] theorem items_acquire (j : κ) : (s.acquire p k x).items j = if j = k then some x else s.items j :=
  Function.update_apply _ _ _ _

@[simp] theorem held_acquire : (s.acquire p k x).held q = if q = p then s.held p ++ [k] else s.held q :=
  Function.update_apply _ _ _ _

@[simp] theorem items_release (j : κ) : (s.release p k).items j = if j = k then none else s.items j :=
  Function.update_apply _ _ _ _

@[simp] theorem held_release : (s.release p k).held q = if q = p then (s.held p).erase k else s.held q :=
  Function.update_apply _ _ _ _

@[simp] theorem held_install {kxs : List (κ × ρ)} :
    (s.install p kxs).held q = if q = p then kxs.map Prod.fst else s.held q := Function.update_apply _ _ _ _

@[simp] theorem items_dispose : (s.dispose p).items k = if k ∈ s.held p then none else s.items k := rfl

@[simp] theorem held_dispose : (s.dispose p).held q = if q = p then [] else s.held q :=
  Function.update_apply _ _ _ _

theorem install_items_of_not_mem {kxs : List (κ × ρ)} (h : k ∉ kxs.map Prod.fst) :
    (s.install p kxs).items k = s.items k := by
  induction kxs using List.reverseRecOn with
  | nil => rfl
  | append_singleton kxs kx ih =>
    simp only [List.map_append, List.mem_append, List.map_cons, List.map_nil, List.mem_singleton, not_or] at h
    simp only [install, List.foldl_append, List.foldl_cons, List.foldl_nil, Function.update_of_ne h.2]
    exact ih h.1

theorem install_items_of_mem {kxs : List (κ × ρ)} (hnodup : (kxs.map Prod.fst).Nodup) (h : (k, x) ∈ kxs) :
    (s.install p kxs).items k = some x := by
  induction kxs using List.reverseRecOn with
  | nil => cases h
  | append_singleton kxs kx ih =>
    rw [List.map_append] at hnodup
    have hdisjoint := List.disjoint_of_nodup_append hnodup
    simp only [install, List.foldl_append, List.foldl_cons, List.foldl_nil]
    rcases List.mem_append.mp h with hm | hm
    · have hne : k ≠ kx.1 := by
        rintro rfl
        exact hdisjoint (List.mem_map_of_mem hm) (List.mem_singleton.mpr rfl)
      rw [Function.update_of_ne hne]
      exact ih hnodup.of_append_left hm
    · obtain rfl := List.mem_singleton.mp hm
      exact Function.update_self _ _ _

theorem Step.frame (hs : Step owner s p s') (h : Sound owner s) (hq : q ≠ p) :
    s'.held q = s.held q ∧ ∀ k x, owner x = q → (s'.items k = some x ↔ s.items k = some x) := by
  -- an item of `p` is never the item of `q` in question
  have hne {x y : ρ} (hx : owner x = p) (hy : owner y = q) : x ≠ y := by
    rintro rfl
    exact hq (hy.symm.trans hx)
  cases hs with
  | stay => exact ⟨rfl, fun _ _ _ => Iff.rfl⟩
  | acquire k x hk hx =>
    refine ⟨by simp [hq], fun j y hy => ?_⟩
    by_cases hj : j = k
    · simp [hj, hk, hne hx hy]
    · simp [hj]
  | release k x hk hx =>
    refine ⟨by simp [hq], fun j y hy => ?_⟩
    by_cases hj : j = k
    · simp [hj, hk, hne hx hy]
    · simp [hj]
  | install kxs hnodup hfresh howner =>
    refine ⟨by simp [hq], fun j y hy => ?_⟩
    by_cases hj : j ∈ kxs.map Prod.fst
    · obtain ⟨kx, hkx, rfl⟩ := List.mem_map.mp hj
      rw [install_items_of_mem hnodup hkx, hfresh kx hkx]
      simp [hne (howner kx hkx) hy]
    · rw [install_items_of_not_mem hj]
  | dispose =>
    refine ⟨by simp [hq], fun j y hy => ?_⟩
    by_cases hj : j ∈ s.held p
    · obtain ⟨x, hx, howner⟩ := h.owned p j hj
      simp [hj, hx, hne howner hy]
    · simp [hj]

theorem Step.items_of_held (hs : Step owner s p s') (h : Sound owner s) (hq : q ≠ p) :
    ∀ k ∈ s.held q, s'.items k = s.items k := by
  intro k hk
  obtain ⟨x, hx, howner⟩ := h.owned q k hk
  rw [hx]
  exact ((hs.frame h hq).2 k x howner).mpr hx

theorem Step.nodup_self (hs : Step owner s p s') (h : Sound owner s) : (s'.held p).Nodup := by
  cases hs with
  | stay => exact h.nodup p
  | acquire k x hk hx =>
    have hn := h.not_held_of_none hk p
    rw [held_acquire, if_pos rfl]
    exact List.Nodup.append (h.nodup p) (List.nodup_singleton k) (by simpa using hn)
  | release k x hk hx =>
    rw [held_release, if_pos rfl]
    exact (h.nodup p).erase k
  | install kxs hnodup hfresh howner =>
    rw [held_install, if_pos rfl]
    exact hnodup
  | dispose =>
    rw [held_dispose, if_pos rfl]
    exact List.nodup_nil

theorem Step.owned_self (hs : Step owner s p s') (h : Sound owner s) (hk : k ∈ s'.held p) :
    ∃ x, s'.items k = some x ∧ owner x = p := by
  cases hs with
  | stay => exact h.owned p k hk
  | acquire j x hj hx =>
    rw [held_acquire, if_pos rfl, List.mem_append, List.mem_singleton] at hk
    by_cases hkj : k = j
    · exact ⟨x, by simp [hkj], hx⟩
    · obtain ⟨y, hy, howner⟩ := h.owned p k (hk.resolve_right hkj)
      exact ⟨y, by simpa [hkj] using hy, howner⟩
  | release j x hj hx =>
    rw [held_release, if_pos rfl, (h.nodup p).mem_erase_iff] at hk
    obtain ⟨y, hy, howner⟩ := h.owned p k hk.2
    exact ⟨y, by simpa [hk.1] using hy, howner⟩
  | install kxs hnodup hfresh howner =>
    rw [held_install, if_pos rfl] at hk
    obtain ⟨kx, hkx, rfl⟩ := List.mem_map.mp hk
    exact ⟨kx.2, install_items_of_mem hnodup hkx, howner kx hkx⟩
  | dispose =>
    rw [held_dispose, if_pos rfl] at hk
    cases hk

theorem Sound.step (h : Sound owner s) (hs : Step owner s p s') : Sound owner s' := by
  constructor
  · intro q
    by_cases hq : q = p
    · rw [hq]
      exact hs.nodup_self h
    · rw [(hs.frame h hq).1]
      exact h.nodup q
  · intro q k hk
    by_cases hq : q = p
    · subst hq
      exact hs.owned_self h hk
    · obtain ⟨hheld, hitems⟩ := hs.frame h hq
      rw [hheld] at hk
      obtain ⟨x, hx, howner⟩ := h.owned q k hk
      exact ⟨x, (hitems k x howner).mpr hx, howner⟩

theorem Complete.acquire (h : Complete owner s) (hx : owner x = p) : Complete owner (s.acquire p k x) := by
  intro j y hj
  by_cases hjk : j = k
  · have hxy : x = y := by simpa [hjk] using hj
    rw [← hxy, hx, hjk]
    simp
  · have hm := h j y (by simpa [hjk] using hj)
    by_cases hp : owner y = p
    · rw [hp] at hm ⊢
      simp [hm]
    · simpa [hp] using hm

theorem Complete.release (h : Complete owner s) : Complete owner (s.release p k) := by
  intro j y hj
  have hjk : j ≠ k := by
    rintro rfl
    simp at hj
  have hm := h j y (by simpa [hjk] using hj)
  by_cases hp : owner y = p
  · rw [hp] at hm ⊢
    simpa using (List.mem_erase_of_ne hjk).mpr hm
  · simpa [hp] using hm

theorem Complete.dispose (h : Complete owner s) : Complete owner (s.dispose p) := by
  intro j y hj
  rw [items_dispose] at hj
  split_ifs at hj with hjp
  have hm := h j y hj
  have hp : owner y ≠ p := fun hp => hjp (hp ▸ hm)
  simpa [hp] using hm

theorem complete_install_iff {kxs : List (κ × ρ)} (hsound : Sound owner s) (h : Complete owner s)
    (hnodup : (kxs.map Prod.fst).Nodup) (hfresh : ∀ kx ∈ kxs, s.items kx.1 = none)
    (howner : ∀ kx ∈ kxs, owner kx.2 = p) : Complete owner (s.install p kxs) ↔ s.held p = [] := by
  constructor
  · intro hc
    by_contra hne
    obtain ⟨j, hj⟩ := List.exists_mem_of_ne_nil _ hne
    obtain ⟨y, hy, hyp⟩ := hsound.owned p j hj
    have hjk : j ∉ kxs.map Prod.fst := by
      intro hm
      obtain ⟨kx, hkx, rfl⟩ := List.mem_map.mp hm
      rw [hfresh kx hkx] at hy
      cases hy
    have hlisted := hc j y (by rw [install_items_of_not_mem hjk, hy])
    rw [hyp, held_install, if_pos rfl] at hlisted
    exact hjk hlisted
  · intro hempty j y hj
    by_cases hjm : j ∈ kxs.map Prod.fst
    · obtain ⟨kx, hkx, rfl⟩ := List.mem_map.mp hjm
      rw [install_items_of_mem hnodup hkx] at hj
      obtain rfl := Option.some.inj hj
      rw [howner kx hkx, held_install, if_pos rfl]
      exact hjm
    · rw [install_items_of_not_mem hjm] at hj
      have hm := h j y hj
      have hp : owner y ≠ p := by
        intro hp
        rw [hp, hempty] at hm
        cases hm
      simpa [hp] using hm

theorem Complete.owner_ne_of_dispose (h : Complete owner s) (hk : (s.dispose p).items k = some x) :
    owner x ≠ p := by
  rw [items_dispose] at hk
  split_ifs at hk with hkp
  have hm := h k x hk
  exact fun hp => hkp (hp ▸ hm)

section load

variable (weight : ρ → ℤ)

def weightAt (s : OwnedStore κ ι ρ) (k : κ) : ℤ := ((s.items k).map weight).getD 0

def load (s : OwnedStore κ ι ρ) (p : ι) : ℤ := ((s.held p).map (s.weightAt weight)).sum

omit [DecidableEq κ] [DecidableEq ι] in
theorem load_congr (hheld : s'.held q = s.held q) (hitems : ∀ k ∈ s.held q, s'.items k = s.items k) :
    s'.load weight q = s.load weight q := by
  have hmap : (s.held q).map (s'.weightAt weight) = (s.held q).map (s.weightAt weight) := by
    apply List.map_congr_left
    intro k hk
    rw [weightAt, hitems k hk, weightAt]
  rw [load, hheld, hmap, load]

omit [DecidableEq κ] [DecidableEq ι] in
theorem load_nonneg (hpos : ∀ k x, s.items k = some x → 0 ≤ weight x) (p : ι) : 0 ≤ s.load weight p := by
  apply List.sum_nonneg
  intro n hn
  obtain ⟨k, -, rfl⟩ := List.mem_map.mp hn
  rw [weightAt]
  cases hk : s.items k with
  | none => simp
  | some x => exact hpos k x hk

theorem Step.load_of_ne (hs : Step owner s p s') (h : Sound owner s) (hq : q ≠ p) :
    s'.load weight q = s.load weight q :=
  load_congr weight (hs.frame h hq).1 (hs.items_of_held h hq)

theorem load_acquire (h : Sound owner s) (hk : s.items k = none) :
    (s.acquire p k x).load weight p = s.load weight p + weight x := by
  have hn := h.not_held_of_none hk p
  have hsame : (s.held p).map ((s.acquire p k x).weightAt weight) = (s.held p).map (s.weightAt weight) := by
    apply List.map_congr_left
    intro j hj
    have hjk : j ≠ k := fun he => hn (he ▸ hj)
    simp [weightAt, hjk]
  have hlast : (s.acquire p k x).weightAt weight k = weight x := by simp [weightAt]
  rw [load, held_acquire, if_pos rfl, List.map_append, List.sum_append, hsame, List.map_singleton,
    List.sum_singleton, hlast, load]

theorem load_release (h : Sound owner s) (hk : s.items k = some x) (hm : k ∈ s.held p) :
    (s.release p k).load weight p = s.load weight p - weight x := by
  have hsame : ((s.held p).erase k).map ((s.release p k).weightAt weight) =
      ((s.held p).erase k).map (s.weightAt weight) := by
    apply List.map_congr_left
    intro j hj
    have hjk : j ≠ k := ((h.nodup p).mem_erase_iff.mp hj).1
    simp [weightAt, hjk]
  have hsum := List.sum_map_erase (s.weightAt weight) hm
  have hweight : s.weightAt weight k = weight x := by simp [weightAt, hk]
  rw [load, held_release, if_pos rfl, hsame, load]
  omega

theorem load_release_of_not_held (hm : k ∉ s.held p) : (s.release p k).load weight p = s.load weight p := by
  apply load_congr weight
  · rw [held_release, if_pos rfl, List.erase_of_not_mem hm]
  · intro j hj
    have hjk : j ≠ k := fun he => hm (he ▸ hj)
    simp [hjk]

theorem load_install {kxs : List (κ × ρ)} (hnodup : (kxs.map Prod.fst).Nodup) :
    (s.install p kxs).load weight p = (kxs.map fun kx => weight kx.2).sum := by
  have hmap : (kxs.map Prod.fst).map ((s.install p kxs).weightAt weight) = kxs.map fun kx => weight kx.2 := by
    rw [List.map_map]
    apply List.map_congr_left
    intro kx hkx
    simp [weightAt, install_items_of_mem hnodup hkx]
  rw [load, held_install, if_pos rfl, hmap]

theorem load_dispose : (s.dispose p).load weight p = 0 := by
  rw [load, held_dispose, if_pos rfl]
  rfl

end load

section contents

def contents (s : OwnedStore κ ι ρ) (p : ι) : List ρ := (s.held p).filterMap s.items

omit [DecidableEq κ] [DecidableEq ι] in
theorem contents_congr (hheld : s'.held q = s.held q) (hitems : ∀ k ∈ s.held q, s'.items k = s.items k) :
    s'.contents q = s.contents q := by
  rw [contents, hheld]
  exact List.filterMap_congr hitems

omit [DecidableEq κ] [DecidableEq ι] in
theorem mem_contents : x ∈ s.contents p ↔ ∃ k ∈ s.held p, s.items k = some x := List.mem_filterMap

theorem Step.contents_of_ne (hs : Step owner s p s') (h : Sound owner s) (hq : q ≠ p) :
    s'.contents q = s.contents q := contents_congr (hs.frame h hq).1 (hs.items_of_held h hq)

theorem contents_acquire (h : Sound owner s) (hk : s.items k = none) :
    (s.acquire p k x).contents p = s.contents p ++ [x] := by
  have hn := h.not_held_of_none hk p
  have hsame : (s.held p).filterMap (s.acquire p k x).items = s.contents p := by
    apply List.filterMap_congr
    intro j hj
    have hjk : j ≠ k := fun he => hn (he ▸ hj)
    simp [hjk]
  rw [contents, held_acquire, if_pos rfl, List.filterMap_append, hsame]
  simp

theorem contents_release (h : Sound owner s) : ((s.release p k).contents p).Sublist (s.contents p) := by
  have hsame : ((s.held p).erase k).filterMap (s.release p k).items =
      ((s.held p).erase k).filterMap s.items := by
    apply List.filterMap_congr
    intro j hj
    have hjk : j ≠ k := ((h.nodup p).mem_erase_iff.mp hj).1
    simp [hjk]
  rw [contents, held_release, if_pos rfl, hsame]
  exact List.erase_sublist.filterMap _

theorem contents_install {kxs : List (κ × ρ)} (hnodup : (kxs.map Prod.fst).Nodup) :
    (s.install p kxs).contents p = kxs.map Prod.snd := by
  have hitems : ∀ kx ∈ kxs, ((s.install p kxs).items ∘ Prod.fst) kx = (some ∘ Prod.snd) kx := by
    intro kx hkx
    exact install_items_of_mem hnodup hkx
  rw [contents, held_install, if_pos rfl, List.filterMap_map, List.filterMap_congr hitems,
    List.filterMap_eq_map]

theorem contents_dispose : (s.dispose p).contents p = [] := by
  rw [contents, held_dispose, if_pos rfl]
  rfl

end contents

end OwnedStore

end TrinityOS
