import TrinityOS.Memory.Bounds
import Mathlib.Algebra.Order.Group.Int
import Mathlib.Data.UInt
import Mathlib.Tactic.Abel

namespace TrinityOS.Memory.MemoryRegion

def stranded (r : MemoryRegion) : Call → UInt64
  | .allocate _ _ _ => 0
  | .free address =>
    match r.find address with
    | none => 0
    | some it => if it + 1 = r.segments.length then 0 else (r.segments[it]?.map (·.size)).getD 0

def FreesLast (r : MemoryRegion) : Call → Prop
  | .allocate _ _ _ => True
  | .free address => ∀ it, r.find address = some it → it + 1 = r.segments.length

def live (r : MemoryRegion) : UInt64 := (r.segments.map (·.size)).sum

def liveBytes (r : MemoryRegion) : ℤ := (r.segments.map fun seg => (seg.size.toNat : ℤ)).sum

variable {r : MemoryRegion} {call : Call} {size : UInt64} {perm : MemoryPermission} {type : MemoryType}
  {address : ℕ} {init rest : List MemorySegment} {seg : MemorySegment}

theorem last_iff (hsegments : r.segments = init ++ seg :: rest) :
    init.length + 1 = r.segments.length ↔ rest = [] := by
  rw [hsegments, List.length_append, List.length_cons, ← List.length_eq_zero_iff]
  omega

theorem stranded_free (hfind : r.find address = some init.length) (hsegments : r.segments = init ++ seg :: rest) :
    r.stranded (.free address) = if rest = [] then 0 else seg.size := by
  have hat : r.segments[init.length]? = some seg := by
    rw [hsegments, List.getElem?_append_right (Nat.le_refl _)]
    simp
  simp only [stranded, hfind, last_iff hsegments, hat, Option.map_some, Option.getD_some]

theorem stranded_of_not_found (hfind : r.find address = none) : r.stranded (.free address) = 0 := by
  simp only [stranded, hfind]

theorem used_sub_live_next (r : MemoryRegion) (call : Call) :
    (r.next call).used - (r.next call).live = r.used - r.live + r.stranded call := by
  have he := r.next_effect call
  generalize r.next call = r' at he
  cases he with
  | refused => exact (add_zero _).symm
  | unknown hfind => rw [stranded_of_not_found hfind, add_zero]
  | appended =>
    change _ = _ + (0 : UInt64)
    simp only [live, List.map_append, List.map_cons, List.map_nil, List.sum_append, List.sum_singleton]
    abel
  | reclaimed init seg hsegments hfind =>
    rw [stranded_free hfind hsegments, if_pos rfl]
    simp only [live, hsegments, List.map_append, List.map_cons, List.map_nil, List.sum_append, List.sum_singleton]
    abel
  | stranded init seg rest hsegments hrest hfind =>
    rw [stranded_free hfind hsegments, if_neg hrest]
    simp only [live, hsegments, List.map_append, List.map_cons, List.sum_append, List.sum_cons]
    abel

theorem Kept.toNat_used_sub_live_next (h : r.Kept) (hok : r.NoWrap call) :
    ((r.next call).used.toNat : ℤ) - (r.next call).liveBytes =
      (r.used.toNat : ℤ) - r.liveBytes + (r.stranded call).toNat := by
  have he := r.next_effect call
  generalize r.next call = r' at he
  cases he with
  | refused => exact (Int.add_zero _).symm
  | unknown hfind => rw [stranded_of_not_found hfind, UInt64.toNat_zero, Int.natCast_zero, Int.add_zero]
  | @appended size perm type hbase hsize hfits =>
    change _ = _ + (((0 : UInt64).toNat : ℕ) : ℤ)
    have hsum := toNat_add_of_lt (hok hbase hsize)
    simp only [liveBytes, hsum, List.map_append, List.map_cons, List.map_nil, List.sum_append, List.sum_singleton,
      UInt64.toNat_zero]
    omega
  | reclaimed init seg hsegments hfind =>
    have hsize := h.size_le hsegments
    have hsub := UInt64.toNat_sub_of_le _ _ hsize
    rw [UInt64.le_iff_toNat_le] at hsize
    rw [stranded_free hfind hsegments, if_pos rfl]
    simp only [liveBytes, hsegments, hsub, List.map_append, List.map_cons, List.map_nil, List.sum_append,
      List.sum_singleton, UInt64.toNat_zero]
    omega
  | stranded init seg rest hsegments hrest hfind =>
    rw [stranded_free hfind hsegments, if_neg hrest]
    simp only [liveBytes, hsegments, List.map_append, List.map_cons, List.sum_append, List.sum_cons]
    omega

theorem live_of_empty (h : r.segments = []) : r.live = 0 := by
  rw [live, h, List.map_nil, List.sum_nil]

theorem liveBytes_of_empty (h : r.segments = []) : r.liveBytes = 0 := by
  rw [liveBytes, h, List.map_nil, List.sum_nil]

variable {capacity : UInt64} {block : ℕ+} {calls : List Call}

theorem used_eq_stranded (hempty : (Run.final next (construct capacity block) calls).segments = []) :
    (Run.final next (construct capacity block) calls).used =
      Run.total next stranded (construct capacity block) calls := by
  have hall : Run.Guarded next (fun _ _ => True) (construct capacity block) calls := Run.guarded_true _ calls
  have htotal := hall.final_eq_add_total (J := fun _ => True) (g := fun r => r.used - r.live)
    (fun _ _ _ _ => trivial) (fun r call _ _ => used_sub_live_next r call) trivial
  have hstart : (construct capacity block).used = 0 := rfl
  rw [live_of_empty hempty, live_of_empty rfl, hstart] at htotal
  simpa using htotal

theorem toNat_used_eq_stranded (hok : Run.Guarded next NoWrap (construct capacity block) calls)
    (hempty : (Run.final next (construct capacity block) calls).segments = []) :
    ((Run.final next (construct capacity block) calls).used.toNat : ℤ) =
      Run.total next (fun r call => ((r.stranded call).toNat : ℤ)) (construct capacity block) calls := by
  have htotal := hok.final_eq_add_total (J := Kept) (g := fun r => (r.used.toNat : ℤ) - r.liveBytes)
    (fun r call h hcall => h.next hcall.acceptsUnwrapped)
    (fun r call h hcall => h.toNat_used_sub_live_next hcall) (construct_kept capacity block)
  have hstart : (construct capacity block).used.toNat = 0 := rfl
  rw [liveBytes_of_empty hempty, liveBytes_of_empty rfl, hstart] at htotal
  simpa using htotal

theorem capacity_next (r : MemoryRegion) (call : Call) :
    (r.next call).base = r.base ∧ (r.next call).capacity = r.capacity := by
  have he := r.next_effect call
  generalize r.next call = r' at he
  cases he <;> exact ⟨rfl, rfl⟩

theorem final_capacity : (Run.final next (construct capacity block) calls).capacity = capacity := by
  refine Run.invariant (P := fun r => MemoryRegion.capacity r = capacity) (fun r call h => ?_) rfl calls
  rw [(capacity_next r call).2, h]

theorem final_base (hcapacity : capacity ≠ 0) :
    (Run.final next (construct capacity block) calls).base = block := by
  refine Run.invariant (P := fun r => MemoryRegion.base r = block) (fun r call h => ?_) (if_pos hcapacity) calls
  rw [(capacity_next r call).1, h]

theorem sizes_positive_next (r : MemoryRegion) (call : Call) (h : ∀ seg ∈ r.segments, seg.size ≠ 0) :
    ∀ seg ∈ (r.next call).segments, seg.size ≠ 0 := by
  have he := r.next_effect call
  generalize r.next call = r' at he
  cases he with
  | refused => exact h
  | unknown => exact h
  | appended hbase hsize =>
    intro seg hmem
    rcases List.mem_append.mp hmem with hmem | hmem
    · exact h seg hmem
    · obtain rfl := List.mem_singleton.mp hmem
      exact hsize
  | reclaimed init last hsegments =>
    intro seg hmem
    apply h seg
    rw [hsegments]
    exact List.mem_append_left [last] hmem
  | stranded init freed rest hsegments =>
    intro seg hmem
    apply h seg
    rw [hsegments]
    exact ((List.sublist_cons_self freed rest).append_left init).subset hmem

theorem freesLast_iff (h : ∀ seg ∈ r.segments, seg.size ≠ 0) : r.FreesLast call ↔ r.stranded call = 0 := by
  cases call with
  | allocate size perm type => exact iff_of_true trivial rfl
  | free address =>
    rcases free_cases r address with ⟨hfind, -⟩ | ⟨init, seg, rest, hsegments, -, hfind, -⟩
    · refine iff_of_true ?_ (stranded_of_not_found hfind)
      intro it hit
      rw [hfind] at hit
      cases hit
    · have hsize : seg.size ≠ 0 := h seg (by rw [hsegments]; simp)
      have hlast : r.FreesLast (.free address) ↔ rest = [] := by
        simp only [FreesLast, hfind, Option.some.injEq, forall_eq', last_iff hsegments]
      rw [hlast, stranded_free hfind hsegments]
      by_cases hrest : rest = []
      · exact iff_of_true hrest (if_pos hrest)
      · rw [if_neg hrest]
        exact iff_of_false hrest hsize

theorem space_after_frees (hcapacity : capacity ≠ 0)
    (hempty : (Run.final next (construct capacity block) calls).segments = []) :
    (Run.final next (construct capacity block) calls).used =
        Run.total next stranded (construct capacity block) calls ∧
      (Run.Guarded next FreesLast (construct capacity block) calls →
        (Run.final next (construct capacity block) calls).used = 0 ∧
          ∀ perm type, ((Run.final next (construct capacity block) calls).allocate
            capacity perm type).2.address ≠ 0) ∧
      (Run.Guarded next NoWrap (construct capacity block) calls →
        (Run.final next (construct capacity block) calls).used = 0 →
          Run.Guarded next FreesLast (construct capacity block) calls) := by
  have hused := used_eq_stranded hempty
  have hpositive : ∀ seg ∈ (construct capacity block).segments, seg.size ≠ 0 := by
    intro seg hmem
    cases hmem
  refine ⟨hused, ?_, ?_⟩
  · intro hlast
    have hnone : Run.Guarded next (fun r call => r.stranded call = 0) (construct capacity block) calls :=
      hlast.imp_of_invariant sizes_positive_next (fun r call h => (freesLast_iff h).mp) hpositive
    have hzero : (Run.final next (construct capacity block) calls).used = 0 := by
      rw [hused]
      exact hnone.total_eq_zero
    refine ⟨hzero, fun perm type => ?_⟩
    rw [accepted_iff, final_base hcapacity, final_capacity, hzero, zero_add]
    exact ⟨block.ne_zero, hcapacity, UInt64.le_refl capacity⟩
  · intro hok hzero
    have htotal := toNat_used_eq_stranded hok hempty
    rw [hzero] at htotal
    have hnone := (Run.total_eq_zero_iff (fun r call => Int.natCast_nonneg _) _ _).mp htotal.symm
    apply hnone.imp_of_invariant sizes_positive_next _ hpositive
    intro r call h hcall
    rw [freesLast_iff h]
    have hnat : (r.stranded call).toNat = 0 := Int.natCast_eq_zero.mp hcall
    exact UInt64.toNat_inj.mp hnat

def freedLastFirst : List Call :=
  [.allocate 4 (.read ||| .write) .heap, .allocate 2 .read .data, .allocate 2 .read .code, .free 4102, .free 4100,
    .free 4096]

def freedMiddleFirst : List Call :=
  [.allocate 4 (.read ||| .write) .heap, .allocate 2 .read .data, .allocate 2 .read .code, .free 4100, .free 4102,
    .free 4096]

theorem space_after_frees_last :
    ((Run.final next (construct 8 4096) freedLastFirst).used = 0 ∧
        ∀ perm type, ((Run.final next (construct 8 4096) freedLastFirst).allocate 8 perm type).2.address ≠ 0) ∧
      (Run.final next (construct 8 4096) freedMiddleFirst).used =
        Run.total next stranded (construct 8 4096) freedMiddleFirst ∧
      Run.total next stranded (construct 8 4096) freedMiddleFirst = 2 := by
  have hlast : Run.Guarded next FreesLast (construct 8 4096) freedLastFirst := by
    refine ⟨trivial, trivial, trivial, ?_, ?_, ?_, trivial⟩ <;> exact (freesLast_iff (by decide)).mpr (by decide)
  refine ⟨(space_after_frees (by decide) (by decide)).2.1 hlast, ?_, by decide⟩
  exact (space_after_frees (by decide) (by decide)).1

def freedInOrder : List Call :=
  [.allocate 4 (.read ||| .write) .heap, .allocate 4 (.read ||| .write) .heap, .free 4096, .free 4100]

theorem space_lost : ¬ ((Run.final next (construct 8 4096) freedInOrder).segments = [] →
    (Run.final next (construct 8 4096) freedInOrder).used = 0 ∧
      ((Run.final next (construct 8 4096) freedInOrder).allocate 8 (.read ||| .write) .heap).2.address ≠ 0) := by
  intro h
  have hused := (h (by decide)).1
  exact absurd hused (by decide)

end TrinityOS.Memory.MemoryRegion
