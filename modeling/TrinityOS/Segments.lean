import Mathlib.Data.Set.BooleanAlgebra
import Mathlib.Order.CompletePartialOrder

namespace TrinityOS

variable {α β : Type} [Preorder β]

structure LaidOut (start stop : α → β) (lo hi : β) (items : List α) : Prop where
  ordered : items.Pairwise (fun a b => stop a ≤ start b)
  nonempty : ∀ a ∈ items, start a < stop a
  lower : ∀ a ∈ items, lo ≤ start a
  upper : ∀ a ∈ items, stop a ≤ hi

namespace LaidOut

variable {start stop : α → β} {lo hi hi' : β} {items items' : List α} {a : α}

theorem nil : LaidOut start stop lo hi [] :=
  ⟨List.Pairwise.nil, by simp, by simp, by simp⟩

theorem sublist (h : LaidOut start stop lo hi items) (hs : items'.Sublist items) :
    LaidOut start stop lo hi items' := by
  constructor
  · exact h.ordered.sublist hs
  · intro a ha
    exact h.nonempty a (hs.subset ha)
  · intro a ha
    exact h.lower a (hs.subset ha)
  · intro a ha
    exact h.upper a (hs.subset ha)

theorem raise (h : LaidOut start stop lo hi items) (hhi : hi ≤ hi') : LaidOut start stop lo hi' items :=
  ⟨h.ordered, h.nonempty, h.lower, fun a ha => (h.upper a ha).trans hhi⟩

theorem concat (h : LaidOut start stop lo hi items) (hlo : lo ≤ start a) (hhi : hi ≤ start a)
    (ha : start a < stop a) : LaidOut start stop lo (stop a) (items ++ [a]) := by
  constructor
  · apply List.pairwise_append.mpr
    refine ⟨h.ordered, List.pairwise_singleton _ a, ?_⟩
    intro b hb c hc
    obtain rfl := List.mem_singleton.mp hc
    exact (h.upper b hb).trans hhi
  · intro b hb
    rcases List.mem_append.mp hb with hb | hb
    · exact h.nonempty b hb
    · obtain rfl := List.mem_singleton.mp hb
      exact ha
  · intro b hb
    rcases List.mem_append.mp hb with hb | hb
    · exact h.lower b hb
    · obtain rfl := List.mem_singleton.mp hb
      exact hlo
  · intro b hb
    rcases List.mem_append.mp hb with hb | hb
    · exact (h.upper b hb).trans (hhi.trans ha.le)
    · obtain rfl := List.mem_singleton.mp hb
      exact le_rfl

theorem dropLast (h : LaidOut start stop lo hi (items ++ [a])) : LaidOut start stop lo (start a) items := by
  have hinit := h.sublist (List.sublist_append_left items [a])
  refine ⟨hinit.ordered, hinit.nonempty, hinit.lower, fun b hb => ?_⟩
  have hcross := (List.pairwise_append.mp h.ordered).2.2
  exact hcross b hb a (List.mem_singleton.mpr rfl)

theorem increasing (h : LaidOut start stop lo hi items) : items.Pairwise (fun a b => start a < start b) := by
  apply h.ordered.imp_of_mem
  intro a b ha _ hab
  exact (h.nonempty a ha).trans_le hab

theorem disjoint (h : LaidOut start stop lo hi items) :
    items.Pairwise (fun a b => Disjoint (Set.Ico (start a) (stop a)) (Set.Ico (start b) (stop b))) := by
  apply h.ordered.imp
  intro a b hab
  rw [Set.disjoint_left]
  intro x hx hx'
  have hlt := hx.2.trans_le (hab.trans hx'.1)
  exact lt_irrefl x hlt

theorem disjoint_above (h : LaidOut start stop lo hi items) (hmem : a ∈ items) {x y : β} (hx : hi ≤ x) :
    Disjoint (Set.Ico x y) (Set.Ico (start a) (stop a)) := by
  rw [Set.disjoint_left]
  intro z hz hz'
  have hlt := hz'.2.trans_le ((h.upper a hmem).trans (hx.trans hz.1))
  exact lt_irrefl z hlt

end LaidOut

end TrinityOS
