import TrinityOS.Memory.Bounds
import Mathlib.Data.UInt

namespace TrinityOS.Memory

structure Request where
  size : UInt64
  perm : MemoryPermission
  type : MemoryType

def Request.call (q : Request) : Call := .allocate q.size q.perm q.type

namespace MemoryRegion

def allocateAll (r : MemoryRegion) : List Request → MemoryRegion × List MemorySegment
  | [] => (r, [])
  | q :: qs =>
    let outcome := r.allocate q.size q.perm q.type
    let rest := outcome.1.allocateAll qs
    (rest.1, outcome.2 :: rest.2)

def freeAll (r : MemoryRegion) : List ℕ → MemoryRegion × List Bool
  | [] => (r, [])
  | address :: addresses =>
    let outcome := r.free address
    let rest := outcome.1.freeAll addresses
    (rest.1, outcome.2 :: rest.2)

variable {r : MemoryRegion} {call : Call}

theorem freeAll_concat (r : MemoryRegion) (addresses : List ℕ) (address : ℕ) :
    r.freeAll (addresses ++ [address]) =
      (((r.freeAll addresses).1.free address).1,
        (r.freeAll addresses).2 ++ [((r.freeAll addresses).1.free address).2]) := by
  induction addresses generalizing r with
  | nil => rfl
  | cons a addresses ih =>
    simp only [List.cons_append, freeAll]
    rw [ih]

/-- A region without a block has no segments, so `nullptr` is the address of none. -/
structure Stacked (r : MemoryRegion) : Prop where
  kept : r.Kept
  addressed : ∀ seg ∈ r.segments, seg.address ≠ 0

theorem Stacked.next (h : r.Stacked) (hok : r.NoWrap call) : (r.next call).Stacked := by
  refine ⟨h.kept.next hok.acceptsUnwrapped, ?_⟩
  have he := r.next_effect call
  generalize r.next call = r' at he
  cases he with
  | refused => exact h.addressed
  | unknown => exact h.addressed
  | appended hbase =>
    intro seg hmem
    rcases List.mem_append.mp hmem with hmem | hmem
    · exact h.addressed seg hmem
    · obtain rfl := List.mem_singleton.mp hmem
      change r.base + r.used.toNat ≠ 0
      omega
  | reclaimed init last hsegments =>
    intro seg hmem
    apply h.addressed seg
    rw [hsegments]
    exact List.mem_append_left [last] hmem
  | stranded init freed rest hsegments =>
    intro seg hmem
    apply h.addressed seg
    rw [hsegments]
    exact ((List.sublist_cons_self freed rest).append_left init).subset hmem

theorem construct_stacked (capacity : UInt64) (block : ℕ+) : (construct capacity block).Stacked := by
  refine ⟨construct_kept capacity block, ?_⟩
  intro seg hmem
  cases hmem

theorem Stacked.free_null (h : r.Stacked) : r.free 0 = (r, false) := by
  rcases free_cases r 0 with ⟨-, hfree⟩ | ⟨init, seg, rest, hsegments, hnull, -⟩
  · exact hfree
  · have hmem : seg ∈ r.segments := by rw [hsegments]; simp
    exact absurd hnull (h.addressed seg hmem)

theorem Kept.address_lt (h : r.Kept) {seg : MemorySegment} (hmem : seg ∈ r.segments) :
    seg.address < r.base + r.used.toNat :=
  (h.laid.nonempty seg hmem).trans_le (h.laid.upper seg hmem)

theorem Stacked.free_allocate (h : r.Stacked) (q : Request) :
    (r.allocate q.size q.perm q.type).1.free (r.allocate q.size q.perm q.type).2.address =
      (r, decide ((r.allocate q.size q.perm q.type).2.address ≠ 0)) := by
  by_cases hrefused : r.base = 0 ∨ q.size = 0 ∨ r.used + q.size > r.capacity
  · rw [allocate_refused hrefused]
    exact h.free_null
  · have hnull : r.base + r.used.toNat ≠ 0 := by omega
    rw [allocate_accepted hrefused]
    simp only [hnull, ne_eq, not_false_eq_true, decide_true]
    rcases free_cases { r with
        used := r.used + q.size
        segments := r.segments ++ [⟨r.base + r.used.toNat, q.size, q.perm, q.type⟩] }
      (r.base + r.used.toNat) with ⟨hfind, -⟩ | ⟨init, seg, rest, hsegments, haddress, -, hfree⟩
    · have hnone := List.findIdx?_eq_none_iff.mp hfind ⟨r.base + r.used.toNat, q.size, q.perm, q.type⟩ (by simp)
      simp at hnone
    · -- nothing that was live before has the new address, so what `find_if` meets is the new segment
      have hrest : rest = [] := by
        rcases List.eq_nil_or_concat rest with hrest | ⟨rest', last, hrest⟩
        · exact hrest
        · rw [hrest, List.concat_eq_append, ← List.cons_append, ← List.append_assoc] at hsegments
          have hinit := (List.append_inj' hsegments rfl).1
          have hmem : seg ∈ r.segments := by rw [hinit]; simp
          have hlt := h.kept.address_lt hmem
          omega
      subst hrest
      obtain ⟨hinit, hlast⟩ := List.append_inj' hsegments rfl
      obtain rfl := (List.cons.inj hlast).1
      rw [hfree, if_pos rfl, List.append_nil, ← hinit, UInt64.add_sub_cancel]

theorem Stacked.freeAll_allocateAll (h : r.Stacked) {requests : List Request}
    (hok : Run.Guarded MemoryRegion.next NoWrap r (requests.map Request.call)) :
    (r.allocateAll requests).1.freeAll ((r.allocateAll requests).2.map MemorySegment.address).reverse =
      (r, ((r.allocateAll requests).2.map fun seg => decide (seg.address ≠ 0)).reverse) := by
  induction requests generalizing r with
  | nil => rfl
  | cons q qs ih =>
    obtain ⟨hq, hqs⟩ := hok
    have htail := ih (h.next hq) hqs
    have hhead := h.free_allocate q
    have hnext : r.next q.call = (r.allocate q.size q.perm q.type).1 := rfl
    rw [hnext] at htail
    simp only [allocateAll, List.map_cons, List.reverse_cons]
    rw [freeAll_concat, htail, hhead]

theorem stack_use (capacity : UInt64) (block : ℕ+) (calls : List Call) (requests : List Request)
    (hcalls : Run.Guarded next NoWrap (construct capacity block) calls)
    (hrequests : Run.Guarded next NoWrap (Run.final next (construct capacity block) calls)
      (requests.map Request.call)) :
    ((Run.final next (construct capacity block) calls).allocateAll requests).1.freeAll
        (((Run.final next (construct capacity block) calls).allocateAll requests).2.map
          MemorySegment.address).reverse =
      (Run.final next (construct capacity block) calls,
        (((Run.final next (construct capacity block) calls).allocateAll requests).2.map
          fun seg => decide (seg.address ≠ 0)).reverse) := by
  have hstacked : Run.Always next Stacked (construct capacity block) calls := by
    refine hcalls.always ?_ (construct_stacked capacity block)
    intro r call h hcall
    exact h.next hcall
  exact hstacked.last.freeAll_allocateAll hrequests

theorem stack_use_hole :
    let r := Run.final next (construct 64 4096)
      [.allocate 8 (.read ||| .write) .heap, .allocate 8 (.read ||| .write) .heap, .free 4096]
    let requests : List Request := [⟨40, .read ||| .write, .heap⟩, ⟨16, .read ||| .write, .heap⟩]
    (r.allocateAll requests).1.freeAll ((r.allocateAll requests).2.map MemorySegment.address).reverse =
      (r, ((r.allocateAll requests).2.map fun seg => decide (seg.address ≠ 0)).reverse) := by
  apply stack_use
  · refine ⟨?_, ?_, trivial, trivial⟩
    · intro _ _
      decide
    · intro _ _
      decide
  · refine ⟨?_, ?_, trivial⟩
    · intro _ _
      decide
    · intro _ _
      decide

end MemoryRegion

end TrinityOS.Memory
