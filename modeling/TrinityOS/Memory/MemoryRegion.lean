import Mathlib.Data.PNat.Defs
import TrinityOS.Run

namespace TrinityOS.Memory

structure MemoryPermission where
  value : UInt8
  deriving DecidableEq

namespace MemoryPermission

def none : MemoryPermission := ⟨0⟩
def read : MemoryPermission := ⟨(1 : UInt8) <<< 0⟩
def write : MemoryPermission := ⟨(1 : UInt8) <<< 1⟩
def exec : MemoryPermission := ⟨(1 : UInt8) <<< 2⟩

instance : OrOp MemoryPermission := ⟨fun lhs rhs => ⟨lhs.value ||| rhs.value⟩⟩

end MemoryPermission

inductive MemoryType where
  | unknown | code | data | stack | heap
  deriving DecidableEq

/-- A pointer is its value; `nullptr` is 0. -/
structure MemorySegment where
  address : ℕ
  size : UInt64
  permission : MemoryPermission
  type : MemoryType
  deriving DecidableEq

def MemorySegment.null : MemorySegment := ⟨0, 0, .none, .unknown⟩

structure MemoryRegion where
  base : ℕ
  capacity : UInt64
  used : UInt64
  segments : List MemorySegment
  deriving DecidableEq

namespace MemoryRegion

/-- The constructor; `block` is what `new` returns for a non-zero capacity. -/
def construct (capacity : UInt64) (block : ℕ+) : MemoryRegion :=
  ⟨if capacity ≠ 0 then block else 0, capacity, 0, []⟩

def allocate (r : MemoryRegion) (size : UInt64) (perm : MemoryPermission) (type : MemoryType) :
    MemoryRegion × MemorySegment :=
  if r.base = 0 ∨ size = 0 ∨ r.used + size > r.capacity then (r, .null)
  else
    let addr := r.base + r.used.toNat
    let seg : MemorySegment := ⟨addr, size, perm, type⟩
    ({ r with used := r.used + size, segments := r.segments ++ [seg] }, seg)

def find (r : MemoryRegion) (address : ℕ) : Option ℕ :=
  r.segments.findIdx? (fun seg => seg.address = address)

def free (r : MemoryRegion) (address : ℕ) : MemoryRegion × Bool :=
  match h : r.find address with
  | none => (r, false)
  | some it =>
    have hit : it < r.segments.length := (List.findIdx?_eq_some_iff_getElem.mp h).choose
    -- the space comes back only with the last listed segment
    let used := if it + 1 = r.segments.length then r.used - r.segments[it].size else r.used
    ({ r with used := used, segments := r.segments.eraseIdx it }, true)

end MemoryRegion

inductive Call where
  | allocate (size : UInt64) (perm : MemoryPermission) (type : MemoryType)
  | free (address : ℕ)

namespace MemoryRegion

def next (r : MemoryRegion) : Call → MemoryRegion
  | .allocate size perm type => (r.allocate size perm type).1
  | .free address => (r.free address).1

variable {r : MemoryRegion} {size : UInt64} {perm : MemoryPermission} {type : MemoryType} {address : ℕ}

theorem allocate_refused (h : r.base = 0 ∨ size = 0 ∨ r.used + size > r.capacity) :
    r.allocate size perm type = (r, .null) := if_pos h

theorem allocate_accepted (h : ¬ (r.base = 0 ∨ size = 0 ∨ r.used + size > r.capacity)) :
    r.allocate size perm type =
      ({ r with
          used := r.used + size
          segments := r.segments ++ [⟨r.base + r.used.toNat, size, perm, type⟩] },
        ⟨r.base + r.used.toNat, size, perm, type⟩) := if_neg h

theorem accepted_iff : (r.allocate size perm type).2.address ≠ 0 ↔
    r.base ≠ 0 ∧ size ≠ 0 ∧ r.used + size ≤ r.capacity := by
  by_cases h : r.base = 0 ∨ size = 0 ∨ r.used + size > r.capacity
  · rw [allocate_refused h]
    refine iff_of_false (fun hne => hne rfl) ?_
    rintro ⟨hbase, hsize, hfits⟩
    rcases h with h | h | h
    · exact hbase h
    · exact hsize h
    · exact absurd hfits (UInt64.not_le.mpr h)
  · rw [allocate_accepted h]
    simp only [not_or, gt_iff_lt, UInt64.not_lt] at h
    refine iff_of_true ?_ h
    change r.base + r.used.toNat ≠ 0
    omega

theorem allocate_size (h : (r.allocate size perm type).2.address ≠ 0) :
    (r.allocate size perm type).2.size = size := by
  by_cases hrefused : r.base = 0 ∨ size = 0 ∨ r.used + size > r.capacity
  · rw [allocate_refused hrefused] at h
    exact absurd rfl h
  · rw [allocate_accepted hrefused]

theorem free_cases (r : MemoryRegion) (address : ℕ) :
    (r.find address = none ∧ r.free address = (r, false)) ∨
      ∃ init seg rest, r.segments = init ++ seg :: rest ∧ seg.address = address ∧
        r.find address = some init.length ∧
        r.free address = ({ r with
          used := if rest = [] then r.used - seg.size else r.used
          segments := init ++ rest }, true) := by
  cases h : r.find address with
  | none =>
    left
    refine ⟨rfl, ?_⟩
    unfold free
    split
    · rfl
    · simp_all
  | some it =>
    right
    obtain ⟨hit, hfound, -⟩ := List.findIdx?_eq_some_iff_getElem.mp h
    refine ⟨r.segments.take it, r.segments[it], r.segments.drop (it + 1), ?_, by simpa using hfound, ?_, ?_⟩
    · rw [List.getElem_cons_drop, List.take_append_drop]
    · rw [List.length_take, Nat.min_eq_left (by omega)]
    · unfold free
      split
      · simp_all
      · rename_i it' h'
        obtain rfl : it' = it := by simp_all
        have hlast : it' + 1 = r.segments.length ↔ r.segments.drop (it' + 1) = [] := by
          rw [List.drop_eq_nil_iff]
          omega
        simp only [hlast, List.eraseIdx_eq_take_drop_succ]

end MemoryRegion

open MemoryRegion in
inductive Effect (r : MemoryRegion) : Call → MemoryRegion → Prop
  | refused {size perm type} : Effect r (.allocate size perm type) r
  | appended {size perm type} (hbase : r.base ≠ 0) (hsize : size ≠ 0) (hfits : r.used + size ≤ r.capacity) :
      Effect r (.allocate size perm type) { r with
        used := r.used + size
        segments := r.segments ++ [⟨r.base + r.used.toNat, size, perm, type⟩] }
  | unknown {address} (hfind : r.find address = none) : Effect r (.free address) r
  | reclaimed {address} (init seg) (hsegments : r.segments = init ++ [seg])
      (hfind : r.find address = some init.length) :
      Effect r (.free address) { r with used := r.used - seg.size, segments := init }
  | stranded {address} (init seg rest) (hsegments : r.segments = init ++ seg :: rest) (hrest : rest ≠ [])
      (hfind : r.find address = some init.length) :
      Effect r (.free address) { r with segments := init ++ rest }

theorem MemoryRegion.next_effect (r : MemoryRegion) (call : Call) : Effect r call (r.next call) := by
  cases call with
  | allocate size perm type =>
    change Effect r _ (r.allocate size perm type).1
    by_cases h : r.base = 0 ∨ size = 0 ∨ r.used + size > r.capacity
    · rw [allocate_refused h]
      exact .refused
    · rw [allocate_accepted h]
      simp only [not_or, gt_iff_lt, UInt64.not_lt] at h
      exact .appended h.1 h.2.1 h.2.2
  | free address =>
    change Effect r _ (r.free address).1
    rcases free_cases r address with ⟨hfind, hfree⟩ | ⟨init, seg, rest, hsegments, -, hfind, hfree⟩
    · rw [hfree]
      exact .unknown hfind
    · rw [hfree]
      by_cases hrest : rest = []
      · subst hrest
        rw [if_pos rfl, List.append_nil]
        exact .reclaimed init seg hsegments hfind
      · rw [if_neg hrest]
        exact .stranded init seg rest hsegments hrest hfind

end TrinityOS.Memory
