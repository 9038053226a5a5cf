import Mathlib.Logic.Function.Basic
import Mathlib.Logic.Relation

namespace TrinityOS

variable {ι : Type}

def Ascends (parent : ι → Option ι) (p q : ι) : Prop := parent p = some q

structure Rooted (root : ι) (parent : ι → Option ι) : Prop where
  root_parent : parent root = some root
  reaches : ∀ p, (parent p).isSome → Relation.ReflTransGen (Ascends parent) p root

namespace Rooted

variable {root p q : ι} {parent : ι → Option ι}

theorem parent_mem (h : Rooted root parent) (hp : parent p = some q) : (parent q).isSome := by
  have hpath := h.reaches p (by simp [hp])
  rcases hpath.cases_head with rfl | ⟨q', hq', htail⟩
  · obtain rfl := Option.some.inj (h.root_parent.symm.trans hp)
    simp [hp]
  · obtain rfl := Option.some.inj (hp.symm.trans hq')
    rcases htail.cases_head with rfl | ⟨r, hr, -⟩
    · simp [h.root_parent]
    · simp [show parent q = some r from hr]

theorem own_parent (h : Rooted root parent) (hp : parent p = some p) : p = root := by
  have hstay : ∀ q, Relation.ReflTransGen (Ascends parent) p q → q = p := by
    intro q hpath
    induction hpath with
    | refl => rfl
    | tail _ hstep ih =>
      subst ih
      exact (Option.some.inj (hp.symm.trans hstep)).symm
  exact (hstay root (h.reaches p (by simp [hp]))).symm

variable [DecidableEq ι]

theorem ascends_update {a b : ι} (hp : parent p = none) (hab : Ascends parent a b) :
    Ascends (Function.update parent p (some q)) a b := by
  have hne : a ≠ p := by
    rintro rfl
    exact absurd (hp.symm.trans hab) (by simp)
  rw [Ascends, Function.update_of_ne hne]
  exact hab

theorem insert (h : Rooted root parent) (hp : parent p = none) (hq : (parent q).isSome) :
    Rooted root (Function.update parent p (some q)) := by
  have hold : ∀ a, (parent a).isSome →
      Relation.ReflTransGen (Ascends (Function.update parent p (some q))) a root := by
    intro a ha
    apply Relation.ReflTransGen.mono _ _ _ (h.reaches a ha)
    intro b c hbc
    exact ascends_update hp hbc
  constructor
  · exact ascends_update hp h.root_parent
  · intro a ha
    by_cases hap : a = p
    · subst hap
      have hstep : Ascends (Function.update parent a (some q)) a q := Function.update_self _ _ _
      exact .head hstep (hold q hq)
    · rw [Function.update_of_ne hap] at ha
      exact hold a ha

theorem insert_iff (h : Rooted root parent) (hp : parent p = none) :
    Rooted root (Function.update parent p (some q)) ↔ (parent q).isSome := by
  constructor
  · intro h'
    have hparent : Function.update parent p (some q) p = some q := Function.update_self _ _ _
    have hmem := h'.parent_mem hparent
    by_cases hqp : q = p
    · subst hqp
      -- a node that is its own parent is the root, which was there before
      have hroot := h'.own_parent hparent
      rw [hroot, h.root_parent] at hp
      cases hp
    · rwa [Function.update_of_ne hqp] at hmem
  · exact h.insert hp

end Rooted

end TrinityOS
