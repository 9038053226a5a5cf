import Mathlib.Data.List.Nodup
import Mathlib.Logic.Function.Basic

namespace TrinityOS

variable {ι β : Type}

structure Exclusive (holds : ι → Option β) (allocated : List β) : Prop where
  nodup : allocated.Nodup
  held : ∀ b, b ∈ allocated ↔ ∃ x, holds x = some b
  single : ∀ x y b, holds x = some b → holds y = some b → x = y

namespace Exclusive

variable {holds : ι → Option β} {allocated : List β} {x y : ι} {b : β}

theorem empty : Exclusive (fun _ : ι => none) ([] : List β) where
  nodup := List.nodup_nil
  held b := by simp
  single x y b hx := by cases hx

theorem mem (h : Exclusive holds allocated) (hx : holds x = some b) : b ∈ allocated := (h.held b).mpr ⟨x, hx⟩

theorem eq_nil (h : Exclusive holds allocated) (hnone : ∀ x, holds x = none) : allocated = [] := by
  rw [List.eq_nil_iff_forall_not_mem]
  intro b hb
  obtain ⟨x, hx⟩ := (h.held b).mp hb
  rw [hnone x] at hx
  cases hx

variable [DecidableEq ι]

theorem acquire (h : Exclusive holds allocated) (hx : holds x = none) (hb : b ∉ allocated) :
    Exclusive (Function.update holds x (some b)) (b :: allocated) where
  nodup := List.nodup_cons.mpr ⟨hb, h.nodup⟩
  held c := by
    rw [List.mem_cons, h.held]
    constructor
    · rintro (rfl | ⟨y, hy⟩)
      · exact ⟨x, Function.update_self x _ holds⟩
      · have hyx : y ≠ x := by
          rintro rfl
          rw [hx] at hy
          cases hy
        exact ⟨y, by rw [Function.update_of_ne hyx, hy]⟩
    · rintro ⟨y, hy⟩
      by_cases hyx : y = x
      · rw [hyx, Function.update_self] at hy
        exact .inl (Option.some.inj hy).symm
      · rw [Function.update_of_ne hyx] at hy
        exact .inr ⟨y, hy⟩
  single y z c hy hz := by
    have hfresh {w : ι} (hw : holds w = some b) : False := hb (h.mem hw)
    simp only [Function.update_apply] at hy hz
    split_ifs at hy hz with h₁ h₂ h₂
    · rw [h₁, h₂]
    · obtain rfl := Option.some.inj hy
      exact (hfresh hz).elim
    · obtain rfl := Option.some.inj hz
      exact (hfresh hy).elim
    · exact h.single y z c hy hz

theorem keep (h : Exclusive holds allocated) (hx : holds x = none) :
    Exclusive (Function.update holds x none) allocated := by
  rwa [Function.update_eq_self_iff.mpr hx.symm]

theorem transfer (h : Exclusive holds allocated) (hx : holds x = none) :
    Exclusive (Function.update (Function.update holds x (holds y)) y none) allocated where
  nodup := h.nodup
  held c := by
    rw [h.held]
    constructor
    · rintro ⟨z, hz⟩
      by_cases hzy : z = y
      · subst hzy
        have hxz : x ≠ z := by
          rintro rfl
          rw [hx] at hz
          cases hz
        exact ⟨x, by rw [Function.update_of_ne hxz, Function.update_self, hz]⟩
      · have hzx : z ≠ x := by
          rintro rfl
          rw [hx] at hz
          cases hz
        exact ⟨z, by rw [Function.update_of_ne hzy, Function.update_of_ne hzx, hz]⟩
    · rintro ⟨z, hz⟩
      simp only [Function.update_apply] at hz
      split_ifs at hz with h₁ h₂
      · exact ⟨y, hz⟩
      · exact ⟨z, hz⟩
  single z w c hz hw := by
    simp only [Function.update_apply] at hz hw
    split_ifs at hz hw with h₁ h₂ h₃ h₄ h₅ h₆
    · rw [h₂, h₄]
    · exact absurd (h.single w y c hw hz) h₃
    · exact absurd (h.single z y c hz hw) h₁
    · exact h.single z w c hz hw

theorem release [DecidableEq β] (h : Exclusive holds allocated) (hx : holds x = some b) :
    Exclusive (Function.update holds x none) (allocated.erase b) where
  nodup := h.nodup.erase b
  held c := by
    rw [h.nodup.mem_erase_iff, h.held]
    constructor
    · rintro ⟨hcb, y, hy⟩
      have hyx : y ≠ x := by
        rintro rfl
        exact hcb (Option.some.inj (hy.symm.trans hx))
      exact ⟨y, by rw [Function.update_of_ne hyx, hy]⟩
    · rintro ⟨y, hy⟩
      simp only [Function.update_apply] at hy
      split_ifs at hy with hyx
      refine ⟨?_, y, hy⟩
      rintro rfl
      exact hyx (h.single y x c hy hx)
  single y z c hy hz := by
    simp only [Function.update_apply] at hy hz
    split_ifs at hy hz
    exact h.single y z c hy hz

end Exclusive

end TrinityOS
