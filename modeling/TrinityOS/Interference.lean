import Mathlib.Logic.Function.Basic
import Mathlib.Logic.Relation

namespace TrinityOS

open Relation (ReflTransGen)

/-- A procedure whose calls share a state of type `σ`, each with a position of its own of type
`π`: what one access of call `i` does to both, and the positions at which a call is under way. -/
structure Procedure (ι σ π : Type) where
  Access : ι → σ × π → σ × π → Prop
  underWay : π → Bool

namespace Procedure

structure Calls (ι σ π : Type) where
  shared : σ
  position : ι → π

variable {ι σ π : Type} (P : Procedure ι σ π) (Overlap : ι → ι → Prop)

def UnderWay (m : Calls ι σ π) (i : ι) : Prop := P.underWay (m.position i) = true

variable [DecidableEq ι]

def Calls.moveTo (m : Calls ι σ π) (i : ι) (c : σ × π) : Calls ι σ π := ⟨c.1, Function.update m.position i c.2⟩

/-- A call may begin while those under way are calls that it may overlap. -/
inductive Step (m : Calls ι σ π) : Calls ι σ π → Prop
  | access {i : ι} {c : σ × π} (h : P.Access i (m.shared, m.position i) c)
      (hoverlap : ¬P.UnderWay m i → ∀ j, P.UnderWay m j → Overlap i j) : Step m (m.moveTo i c)

def Reachable (s : σ) (p : π) (m : Calls ι σ π) : Prop := ReflTransGen (P.Step Overlap) ⟨s, fun _ => p⟩ m

variable {P Overlap} {m : Calls ι σ π} {i j : ι} {c : σ × π} {s : σ} {p : π}

@[simp] theorem Calls.moveTo_shared (m : Calls ι σ π) (i : ι) (c : σ × π) : (m.moveTo i c).shared = c.1 := rfl

@[simp] theorem Calls.moveTo_self (m : Calls ι σ π) (i : ι) (c : σ × π) : (m.moveTo i c).position i = c.2 :=
  Function.update_self _ _ _

theorem Calls.moveTo_of_ne (m : Calls ι σ π) (h : j ≠ i) (c : σ × π) : (m.moveTo i c).position j = m.position j :=
  Function.update_of_ne h _ _

theorem Calls.moveTo_moveTo (m : Calls ι σ π) (i : ι) (c d : σ × π) : (m.moveTo i c).moveTo i d = m.moveTo i d := by
  simp only [moveTo, Function.update_idem]

theorem underWay_moveTo_of_ne (h : j ≠ i) : P.UnderWay (m.moveTo i c) j ↔ P.UnderWay m j := by
  rw [UnderWay, UnderWay, m.moveTo_of_ne h]

theorem Reachable.overlap (h : P.Reachable Overlap s p m) (hp : P.underWay p = false) (hne : i ≠ j)
    (hi : P.UnderWay m i) (hj : P.UnderWay m j) : Overlap i j ∨ Overlap j i := by
  induction h generalizing i j with
  | refl =>
    rw [UnderWay, hp] at hi
    cases hi
  | @tail m _ _ hs ih =>
    obtain ⟨_, hoverlap⟩ := hs
    next k c hc =>
    -- A call that moves has been under way before, or begins beside all the others.
    have hmoved {l : ι} (hl : l ≠ k) (hunder : P.UnderWay m l) : Overlap k l ∨ Overlap l k := by
      by_cases hk : P.UnderWay m k
      · exact ih hl.symm hk hunder
      · exact .inl (hoverlap hk l hunder)
    by_cases hik : i = k
    · subst hik
      rw [underWay_moveTo_of_ne hne.symm] at hj
      exact hmoved hne.symm hj
    · rw [underWay_moveTo_of_ne hik] at hi
      by_cases hjk : j = k
      · subst hjk
        exact (hmoved hik hi).symm
      · rw [underWay_moveTo_of_ne hjk] at hj
        exact ih hne hi hj

variable (P Overlap)

/-- What is asserted of a call at each of its positions, and kept by the accesses of the calls that
may overlap it. -/
structure Outline where
  invariant : σ → Prop
  assertion : ι → σ → π → Prop
  /-- what holds besides whenever no call is under way -/
  quiet : σ → Prop
  own {i : ι} {c d : σ × π} (h : P.Access i c d) (hinv : invariant c.1) (ha : assertion i c.1 c.2) :
    invariant d.1 ∧ assertion i d.1 d.2
  others {i j : ι} {c d : σ × π} {q : π} (h : P.Access i c d) (hne : i ≠ j)
    (hoverlap : P.underWay q = true → Overlap i j ∨ Overlap j i) (hinv : invariant c.1)
    (ha : assertion i c.1 c.2) (hq : assertion j c.1 q) : assertion j d.1 q
  returns {i : ι} {c d : σ × π} (h : P.Access i c d) (hinv : invariant c.1) (ha : assertion i c.1 c.2)
    (hd : P.underWay d.2 = false) : quiet d.1

namespace Outline

variable {P Overlap} (O : P.Outline Overlap)

structure Holds (m : Calls ι σ π) : Prop where
  invariant : O.invariant m.shared
  assertion : ∀ i, O.assertion i m.shared (m.position i)
  quiet : (∀ i, ¬P.UnderWay m i) → O.quiet m.shared

theorem holds_of_reachable (hp : P.underWay p = false) (hinv : O.invariant s) (ha : ∀ i, O.assertion i s p)
    (hquiet : O.quiet s) (h : P.Reachable Overlap s p m) : O.Holds m := by
  induction h with
  | refl => exact ⟨hinv, ha, fun _ => hquiet⟩
  | @tail m _ hm hs ih =>
    obtain ⟨hc, hoverlap⟩ := hs
    next i c =>
    obtain ⟨hinv', hown⟩ := O.own hc ih.invariant (ih.assertion i)
    refine ⟨hinv', fun j => ?_, fun hall => O.returns hc ih.invariant (ih.assertion i) ?_⟩
    · by_cases hj : j = i
      · subst hj
        rw [Calls.moveTo_self]
        exact hown
      · rw [m.moveTo_of_ne hj]
        refine O.others hc (Ne.symm hj) (fun hunder => ?_) ih.invariant (ih.assertion i) (ih.assertion j)
        by_cases hi : P.UnderWay m i
        · exact Reachable.overlap hm hp (Ne.symm hj) hi hunder
        · exact .inl (hoverlap hi j hunder)
    · have hi := hall i
      rw [UnderWay, Calls.moveTo_self] at hi
      exact Bool.eq_false_iff.mpr hi

end Outline

variable {P Overlap}

theorem Reachable.resume (h : P.Reachable Overlap s p m) (hunder : P.UnderWay m i)
    (hc : P.Access i (m.shared, m.position i) c) : P.Reachable Overlap s p (m.moveTo i c) :=
  h.tail (.access hc fun hnot => absurd hunder hnot)

theorem Reachable.run (h : P.Reachable Overlap s p m) (hoverlap : ∀ j, j ≠ i → P.UnderWay m j → Overlap i j)
    (hc : ReflTransGen (P.Access i) (m.shared, m.position i) c) : P.Reachable Overlap s p (m.moveTo i c) := by
  induction hc with
  | refl =>
    have hsame : m.moveTo i (m.shared, m.position i) = m := by simp [Calls.moveTo]
    rw [hsame]
    exact h
  | @tail b c _ hc ih =>
    have hmoved : (m.moveTo i b).moveTo i c = m.moveTo i c := m.moveTo_moveTo i b c
    rw [← hmoved]
    refine ih.tail (.access ?_ fun hnot j hj => ?_)
    · simpa using hc
    · have hne : j ≠ i := by
        rintro rfl
        exact hnot hj
      exact hoverlap j hne ((underWay_moveTo_of_ne hne).mp hj)

end Procedure

end TrinityOS
