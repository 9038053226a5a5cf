import TrinityOS.Memory.MemoryRegion
import TrinityOS.Segments

namespace TrinityOS.Memory

namespace MemorySegment

def stop (seg : MemorySegment) : ℕ := seg.address + seg.size.toNat

def bytes (seg : MemorySegment) : Set ℕ := Set.Ico seg.address seg.stop

end MemorySegment

namespace MemoryRegion

def RespectsBound (r : MemoryRegion) : Call → Prop
  | .allocate size perm type =>
    let outcome := r.allocate size perm type
    (outcome.2.address ≠ 0 → r.used.toNat + size.toNat ≤ r.capacity.toNat ∧
      r.base ≤ outcome.2.address ∧ outcome.2.stop ≤ r.base + r.capacity.toNat) ∧
    (outcome.2.address = 0 → outcome.1.used = r.used ∧ outcome.1.segments = r.segments)
  | .free _ => True

def AcceptsUnwrapped (r : MemoryRegion) : Call → Prop
  | .allocate size _ _ => r.base ≠ 0 → size ≠ 0 → r.used + size ≤ r.capacity →
      r.used.toNat + size.toNat < UInt64.size
  | .free _ => True

def NoWrap (r : MemoryRegion) : Call → Prop
  | .allocate size _ _ => r.base ≠ 0 → size ≠ 0 → r.used.toNat + size.toNat < UInt64.size
  | .free _ => True

/-- `used` bounds the end of the last live segment, whatever has been freed below it. -/
structure Kept (r : MemoryRegion) : Prop where
  laid : LaidOut MemorySegment.address MemorySegment.stop r.base (r.base + r.used.toNat) r.segments
  bound : r.used ≤ r.capacity

structure Separate (r : MemoryRegion) : Prop where
  increasing : r.segments.Pairwise (fun a b => a.address < b.address)
  disjoint : r.segments.Pairwise (fun a b => Disjoint a.bytes b.bytes)
  positive : ∀ seg ∈ r.segments, 0 < seg.size
  inside : ∀ seg ∈ r.segments, r.base ≤ seg.address ∧ seg.stop ≤ r.base + r.used.toNat
  reclaimed_le : ∀ seg, r.segments.getLast? = some seg → seg.size ≤ r.used
  allocated_disjoint : ∀ size perm type, (r.allocate size perm type).2.address ≠ 0 →
    ∀ seg ∈ r.segments, Disjoint (r.allocate size perm type).2.bytes seg.bytes
  allocated_listed : ∀ size perm type, (r.allocate size perm type).2.address ≠ 0 →
    (r.allocate size perm type).1.segments = r.segments ++ [(r.allocate size perm type).2]

variable {r : MemoryRegion} {call : Call} {size : UInt64} {perm : MemoryPermission} {type : MemoryType} {address : ℕ}

theorem NoWrap.acceptsUnwrapped (h : r.NoWrap call) : r.AcceptsUnwrapped call := by
  cases call with
  | allocate size perm type =>
    intro hbase hsize _
    exact h hbase hsize
  | free address => trivial

theorem toNat_add_of_lt (h : r.used.toNat + size.toNat < UInt64.size) :
    (r.used + size).toNat = r.used.toNat + size.toNat := by
  rw [UInt64.toNat_add]
  exact Nat.mod_eq_of_lt h

theorem Kept.size_le {init : List MemorySegment} {seg : MemorySegment} (h : r.Kept) (hs : r.segments = init ++ [seg]) :
    seg.size ≤ r.used := by
  have hmem : seg ∈ r.segments := by rw [hs]; simp
  have hlower := h.laid.lower seg hmem
  have hupper := h.laid.upper seg hmem
  rw [UInt64.le_iff_toNat_le]
  simp only [MemorySegment.stop] at hupper
  omega

theorem Kept.next (h : r.Kept) (hok : r.AcceptsUnwrapped call) : (r.next call).Kept := by
  have he := r.next_effect call
  generalize r.next call = r' at he
  cases he with
  | refused => exact h
  | unknown => exact h
  | @appended size perm type hbase hsize hfits =>
    have hsum := toNat_add_of_lt (hok hbase hsize hfits)
    have hpos : 0 < size.toNat := by
      apply Nat.pos_of_ne_zero
      intro hzero
      exact hsize (UInt64.toNat_inj.mp hzero)
    refine ⟨?_, hfits⟩
    have hend : r.base + (r.used + size).toNat = r.base + r.used.toNat + size.toNat := by omega
    change LaidOut _ _ r.base (r.base + (r.used + size).toNat) _
    rw [hend]
    apply h.laid.concat (a := ⟨r.base + r.used.toNat, size, perm, type⟩)
    · exact Nat.le_add_right r.base r.used.toNat
    · exact le_rfl
    · exact Nat.lt_add_of_pos_right hpos
  | reclaimed init seg hsegments =>
    have hsize := h.size_le hsegments
    have hsub := UInt64.toNat_sub_of_le _ _ hsize
    rw [UInt64.le_iff_toNat_le] at hsize
    constructor
    · have hlaid := h.laid
      rw [hsegments] at hlaid
      have hupper := hlaid.upper seg (by simp)
      refine hlaid.dropLast.raise ?_
      change seg.address ≤ r.base + (r.used - seg.size).toNat
      simp only [MemorySegment.stop] at hupper
      omega
    · have hbound := h.bound
      rw [UInt64.le_iff_toNat_le] at hbound ⊢
      change (r.used - seg.size).toNat ≤ r.capacity.toNat
      omega
  | stranded init seg rest hsegments =>
    refine ⟨h.laid.sublist ?_, h.bound⟩
    rw [hsegments]
    exact (List.sublist_cons_self seg rest).append_left init

theorem construct_kept (capacity : UInt64) (block : ℕ+) : (construct capacity block).Kept :=
  ⟨LaidOut.nil, UInt64.le_iff_toNat_le.mpr (Nat.zero_le _)⟩

theorem always_kept {capacity : UInt64} {block : ℕ+} {calls : List Call}
    (hok : Run.Guarded next AcceptsUnwrapped (construct capacity block) calls) :
    Run.Always next Kept (construct capacity block) calls := by
  refine hok.always (J := Kept) ?_ ?_
  · intro r call h hcall
    exact h.next hcall
  · exact construct_kept capacity block

theorem respectsBound_iff : r.RespectsBound call ↔ r.AcceptsUnwrapped call := by
  cases call with
  | free address => exact Iff.rfl
  | allocate size perm type =>
    constructor
    · intro hr hbase hsize hfits
      have haccepted := @accepted_iff r size perm type
      obtain ⟨hsum, -⟩ := hr.1 (haccepted.mpr ⟨hbase, hsize, hfits⟩)
      exact hsum.trans_lt r.capacity.toNat_lt
    · intro hok
      by_cases hrefused : r.base = 0 ∨ size = 0 ∨ r.used + size > r.capacity
      · rw [RespectsBound, allocate_refused hrefused]
        exact ⟨fun hne => absurd rfl hne, fun _ => ⟨rfl, rfl⟩⟩
      · have hnull : r.base + r.used.toNat ≠ 0 := by omega
        rw [RespectsBound, allocate_accepted hrefused]
        simp only [not_or, gt_iff_lt, UInt64.not_lt] at hrefused
        obtain ⟨hbase, hsize, hfits⟩ := hrefused
        rw [UInt64.le_iff_toNat_le, toNat_add_of_lt (hok hbase hsize hfits)] at hfits
        refine ⟨fun _ => ⟨hfits, Nat.le_add_right _ _, ?_⟩, fun hzero => absurd hzero hnull⟩
        change r.base + r.used.toNat + size.toNat ≤ r.base + r.capacity.toNat
        omega

theorem bounds_iff (capacity : UInt64) (block : ℕ+) (calls : List Call) :
    (Run.Guarded next RespectsBound (construct capacity block) calls ∧
        Run.Always next (fun r => r.used ≤ r.capacity) (construct capacity block) calls) ↔
      Run.Guarded next AcceptsUnwrapped (construct capacity block) calls := by
  constructor
  · rintro ⟨hr, -⟩
    exact hr.imp fun _ _ => respectsBound_iff.mp
  · intro hok
    refine ⟨hok.imp fun _ _ => respectsBound_iff.mpr, fun pre hpre => ?_⟩
    exact (always_kept hok pre hpre).bound

theorem oversized_request_accepted :
    ¬ (Run.Guarded next RespectsBound (construct 16 4096)
          [.allocate 8 (.read ||| .write) .heap, .allocate (0 - 4) (.read ||| .write) .heap] ∧
        Run.Always next (fun r => r.used ≤ r.capacity) (construct 16 4096)
          [.allocate 8 (.read ||| .write) .heap, .allocate (0 - 4) (.read ||| .write) .heap]) := by
  rintro ⟨⟨-, hbad, -⟩, -⟩
  obtain ⟨hsum, -⟩ := hbad.1 (by decide)
  exact absurd hsum (by decide)

theorem Kept.separate (h : r.Kept) : r.Separate := by
  have hallocate {size : UInt64} {perm : MemoryPermission} {type : MemoryType}
      (haccepted : (r.allocate size perm type).2.address ≠ 0) :
      ¬ (r.base = 0 ∨ size = 0 ∨ r.used + size > r.capacity) := by
    simpa only [not_or, gt_iff_lt, UInt64.not_lt] using accepted_iff.mp haccepted
  constructor
  · exact h.laid.increasing
  · exact h.laid.disjoint
  · intro seg hmem
    have hlt := h.laid.nonempty seg hmem
    rw [UInt64.lt_iff_toNat_lt]
    simp only [MemorySegment.stop] at hlt
    change 0 < seg.size.toNat
    omega
  · intro seg hmem
    exact ⟨h.laid.lower seg hmem, h.laid.upper seg hmem⟩
  · intro seg hlast
    obtain ⟨init, hsegments⟩ := List.getLast?_eq_some_iff.mp hlast
    exact h.size_le hsegments
  · intro size perm type haccepted seg hmem
    rw [allocate_accepted (hallocate haccepted)]
    exact h.laid.disjoint_above hmem le_rfl
  · intro size perm type haccepted
    rw [allocate_accepted (hallocate haccepted)]

theorem always_separate (capacity : UInt64) (block : ℕ+) (calls : List Call)
    (hok : Run.Guarded next NoWrap (construct capacity block) calls) :
    Run.Always next Separate (construct capacity block) calls := by
  intro pre hpre
  have hunwrapped : Run.Guarded next AcceptsUnwrapped (construct capacity block) calls :=
    hok.imp fun _ _ h => h.acceptsUnwrapped
  exact (always_kept hunwrapped pre hpre).separate

theorem always_separate_hole :
    Run.Always next Separate (construct 64 4096)
      [.allocate 8 (.read ||| .write) .heap, .allocate 8 (.read ||| .write) .heap, .free 4096, .free 0] := by
  apply always_separate
  refine ⟨?_, ?_, trivial, trivial, trivial⟩
  · intro _ _
    decide
  · intro _ _
    decide

end MemoryRegion

end TrinityOS.Memory
