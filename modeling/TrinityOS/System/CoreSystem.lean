import TrinityOS.Memory.Bounds

namespace TrinityOS.System

open Memory (MemoryRegion MemoryPermission MemoryType)

structure CoreSystem where
  region : Option MemoryRegion

inductive Call where
  | initProcessMemory (capacity : UInt64) (block : ℕ+)
  | memoryAllocate (size : UInt64) (perm : MemoryPermission) (type : MemoryType)
  | memoryFree (addr : ℕ)

namespace CoreSystem

def initProcessMemory (_ : CoreSystem) (capacity : UInt64) (block : ℕ+) : CoreSystem :=
  ⟨some (.construct capacity block)⟩

def syscallMemoryAllocate (s : CoreSystem) (size : UInt64) (perm : MemoryPermission) (type : MemoryType) :
    CoreSystem × ℕ :=
  match s.region with
  | none => (s, 0)
  | some region =>
    let (region, segment) := region.allocate size perm type
    (⟨some region⟩, segment.address)

def syscallMemoryFree (s : CoreSystem) (addr : ℕ) : CoreSystem :=
  match s.region with
  | none => s
  | some region => ⟨some (region.free addr).1⟩

def next (s : CoreSystem) : Call → CoreSystem
  | .initProcessMemory capacity block => s.initProcessMemory capacity block
  | .memoryAllocate size perm type => (s.syscallMemoryAllocate size perm type).1
  | .memoryFree addr => s.syscallMemoryFree addr

def AcceptsUnwrapped (s : CoreSystem) : Call → Prop
  | .memoryAllocate size perm type => ∀ region, s.region = some region →
      region.AcceptsUnwrapped (.allocate size perm type)
  | _ => True

def Bounded (s : CoreSystem) : Prop :=
  ∀ region, s.region = some region → region.used ≤ region.capacity ∧
    ∀ size perm type, s.AcceptsUnwrapped (.memoryAllocate size perm type) →
      (s.syscallMemoryAllocate size perm type).2 ≠ 0 →
        region.base ≤ (s.syscallMemoryAllocate size perm type).2 ∧
          (s.syscallMemoryAllocate size perm type).2 + size.toNat ≤ region.base + region.capacity.toNat

theorem bounded_of_kept {s : CoreSystem} (h : ∀ region, s.region = some region → region.Kept) : s.Bounded := by
  intro region hs
  refine ⟨(h region hs).bound, fun size perm type hunwrapped hnonnull => ?_⟩
  have hr : region.RespectsBound (.allocate size perm type) :=
    MemoryRegion.respectsBound_iff.mpr (hunwrapped region hs)
  rw [syscallMemoryAllocate, hs] at hnonnull ⊢
  obtain ⟨-, hlower, hupper⟩ := hr.1 hnonnull
  refine ⟨hlower, ?_⟩
  have hsize := MemoryRegion.allocate_size hnonnull
  rw [Memory.MemorySegment.stop, hsize] at hupper
  exact hupper

end CoreSystem

end TrinityOS.System
