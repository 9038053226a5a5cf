import Mathlib.Data.List.Nodup
import Mathlib.Data.List.Rotate
import Mathlib.Logic.Function.Basic

namespace TrinityOS

@[ext]
structure ReadyTable (ι σ ρ : Type) where
  status : ι → Option σ
  ready : List ι
  blocked : ι → Option ρ

namespace ReadyTable

variable {ι σ ρ : Type} {r b : σ} {v w : ReadyTable ι σ ρ}

structure Consistent (r b : σ) (v : ReadyTable ι σ ρ) : Prop where
  nodup : v.ready.Nodup
  mem_ready : ∀ p, p ∈ v.ready ↔ v.status p = some r
  blocked_isSome : ∀ p, (v.blocked p).isSome ↔ v.status p = some b

theorem Consistent.not_mem_of_status (h : Consistent r b v) {p : ι} (hp : v.status p ≠ some r) :
    p ∉ v.ready := fun hm => hp ((h.mem_ready p).mp hm)

theorem Consistent.blocked_eq_none (h : Consistent r b v) {p : ι} (hp : v.status p ≠ some b) :
    v.blocked p = none := by
  rw [← Option.isNone_iff_eq_none, ← Option.isSome_eq_false_iff, ← Bool.not_eq_true]
  exact fun hm => hp ((h.blocked_isSome p).mp hm)

variable [DecidableEq ι]

def enqueue (r : σ) (p : ι) (v : ReadyTable ι σ ρ) : ReadyTable ι σ ρ where
  status := Function.update v.status p (some r)
  ready := v.ready ++ [p]
  blocked := Function.update v.blocked p none

def park (b : σ) (p : ι) (reason : ρ) (v : ReadyTable ι σ ρ) : ReadyTable ι σ ρ where
  status := Function.update v.status p (some b)
  ready := v.ready.erase p
  blocked := Function.update v.blocked p (some reason)

def retire (x : σ) (p : ι) (v : ReadyTable ι σ ρ) : ReadyTable ι σ ρ where
  status := Function.update v.status p (some x)
  ready := v.ready.erase p
  blocked := Function.update v.blocked p none

def cycle (v : ReadyTable ι σ ρ) : ReadyTable ι σ ρ := { v with ready := v.ready.rotate 1 }

inductive Step (r b : σ) (v : ReadyTable ι σ ρ) : ReadyTable ι σ ρ → Prop
  | stay : Step r b v v
  | enqueue (p : ι) (h : v.status p ≠ some r) : Step r b v (v.enqueue r p)
  | park (p : ι) (reason : ρ) : Step r b v (v.park b p reason)
  | retire (p : ι) (x : σ) (hr : x ≠ r) (hb : x ≠ b) : Step r b v (v.retire x p)
  | cycle : Step r b v v.cycle

theorem Consistent.enqueue (h : Consistent r b v) (hrb : r ≠ b) {p : ι} (hp : v.status p ≠ some r) :
    Consistent r b (v.enqueue r p) where
  nodup := by
    have hn : p ∉ v.ready := h.not_mem_of_status hp
    exact List.Nodup.append h.nodup (List.nodup_singleton p) (by simpa using hn)
  mem_ready q := by
    by_cases hq : q = p
    · subst hq; simp [ReadyTable.enqueue]
    · simp [ReadyTable.enqueue, hq, h.mem_ready q]
  blocked_isSome q := by
    by_cases hq : q = p
    · subst hq; simp [ReadyTable.enqueue, hrb]
    · simp [ReadyTable.enqueue, hq, h.blocked_isSome q]

theorem Consistent.park (h : Consistent r b v) (hrb : r ≠ b) (p : ι) (reason : ρ) :
    Consistent r b (v.park b p reason) where
  nodup := h.nodup.erase p
  mem_ready q := by
    by_cases hq : q = p
    · subst hq; simp [ReadyTable.park, h.nodup.not_mem_erase, hrb.symm]
    · simp [ReadyTable.park, hq, List.mem_erase_of_ne, h.mem_ready q]
  blocked_isSome q := by
    by_cases hq : q = p
    · subst hq; simp [ReadyTable.park]
    · simp [ReadyTable.park, hq, h.blocked_isSome q]

theorem Consistent.retire (h : Consistent r b v) {x : σ} (hr : x ≠ r) (hb : x ≠ b) (p : ι) :
    Consistent r b (v.retire x p) where
  nodup := h.nodup.erase p
  mem_ready q := by
    by_cases hq : q = p
    · subst hq; simp [ReadyTable.retire, h.nodup.not_mem_erase, hr]
    · simp [ReadyTable.retire, hq, List.mem_erase_of_ne, h.mem_ready q]
  blocked_isSome q := by
    by_cases hq : q = p
    · subst hq; simp [ReadyTable.retire, hb]
    · simp [ReadyTable.retire, hq, h.blocked_isSome q]

omit [DecidableEq ι] in
theorem Consistent.cycle (h : Consistent r b v) : Consistent r b v.cycle where
  nodup := List.nodup_rotate.mpr h.nodup
  mem_ready p := List.mem_rotate.trans (h.mem_ready p)
  blocked_isSome := h.blocked_isSome

theorem Step.consistent (hrb : r ≠ b) (hs : Step r b v w) (h : Consistent r b v) : Consistent r b w := by
  cases hs with
  | stay => exact h
  | enqueue p hp => exact h.enqueue hrb hp
  | park p reason => exact h.park hrb p reason
  | retire p x hr hb => exact h.retire hr hb p
  | cycle => exact h.cycle

end ReadyTable

end TrinityOS
