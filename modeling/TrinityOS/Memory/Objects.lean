import TrinityOS.Memory.Bounds
import TrinityOS.Ownership

namespace TrinityOS.Memory

namespace MemoryRegion

/-- The moved-from object; a vector that has been moved from is empty. -/
def movedFrom : MemoryRegion := ⟨0, 0, 0, []⟩

def moveConstruct (other : MemoryRegion) : MemoryRegion × MemoryRegion :=
  (⟨other.base, other.capacity, other.used, other.segments⟩, movedFrom)

end MemoryRegion

/-- The region objects in scope, by name, and what `new[]` has returned and `delete[]` has not been given. -/
structure Objects where
  region : String → Option MemoryRegion
  allocated : List ℕ

inductive Statement where
  | construct (x : String) (capacity : UInt64) (block : ℕ+)
  | moveConstruct (x y : String)
  | moveAssign (x y : String)
  | destroy (x : String)
  | call (x : String) (call : Call)

namespace Objects

def empty : Objects := ⟨fun _ => none, []⟩

def set (o : Objects) (x : String) (r : Option MemoryRegion) : Objects :=
  { o with region := Function.update o.region x r }

/-- Deleting what is not allocated is undefined. -/
def deleteArray (o : Objects) (base : ℕ) : Option Objects :=
  if base = 0 then some o
  else if base ∈ o.allocated then some { o with allocated := o.allocated.erase base }
  else none

/-- A statement that names an object out of scope, or a name that is taken, is no statement of
the program. -/
def exec (o : Objects) : Statement → Option Objects
  | .construct x capacity block =>
    let o := if capacity ≠ 0 then { o with allocated := block :: o.allocated } else o
    some (o.set x (some (.construct capacity block)))
  | .moveConstruct x y => (o.region y).map fun other =>
    (o.set x (some other.moveConstruct.1)).set y (some other.moveConstruct.2)
  | .moveAssign x y =>
    match o.region x, o.region y with
    | some this, some other =>
      if x ≠ y then
        (o.deleteArray this.base).map fun o =>
          (o.set x (some ⟨other.base, other.capacity, other.used, other.segments⟩)).set y (some .movedFrom)
      else some o
    | _, _ => none
  | .destroy x =>
    match o.region x with
    | some this => (o.deleteArray this.base).map fun o => o.set x none
    | none => none
  | .call x call => (o.region x).map fun this => o.set x (some (this.next call))

def next (s : Option Objects) (e : Statement) : Option Objects := s.bind fun o => o.exec e

def Blocks (base : ℕ) (capacity : UInt64) : Set ℕ := Set.Ico base (base + capacity.toNat)

/-- What the language and `new` promise: names are in scope when they are used and free when they
are declared, and a new block meets no other. -/
def Promised (o : Objects) : Statement → Prop
  | .construct x capacity block => o.region x = none ∧ (block : ℕ) ∉ o.allocated ∧
      ∀ y r, o.region y = some r → r.base ≠ 0 → Disjoint (Blocks block capacity) (Blocks r.base r.capacity)
  | .moveConstruct x y => o.region x = none ∧ (o.region y).isSome
  | .moveAssign x y => (o.region x).isSome ∧ (o.region y).isSome
  | .destroy x => (o.region x).isSome
  | .call x _ => (o.region x).isSome

def Unwrapped (o : Objects) : Statement → Prop
  | .call x call => ∀ r, o.region x = some r → r.AcceptsUnwrapped call
  | _ => True

def holds (o : Objects) (x : String) : Option ℕ :=
  (o.region x).bind fun r => if r.base = 0 then none else some r.base

def Owned (o : Objects) : Prop := Exclusive o.holds o.allocated

variable {o o' : Objects} {x y : String} {r : MemoryRegion}

theorem holds_set (o : Objects) (x : String) (r : Option MemoryRegion) :
    (o.set x r).holds = Function.update o.holds x (r.bind fun r => if r.base = 0 then none else some r.base) := by
  funext y
  by_cases hy : y = x
  · subst hy
    simp [holds, set]
  · simp [holds, set, hy]

theorem holds_of_region (h : o.region x = some r) : o.holds x = if r.base = 0 then none else some r.base := by
  rw [holds, h, Option.bind_some]

theorem holds_of_none (h : o.region x = none) : o.holds x = none := by
  rw [holds, h, Option.bind_none]

theorem Owned.deleteArray (h : o.Owned) (hx : o.region x = some r) :
    ∃ allocated, o.deleteArray r.base = some { o with allocated } ∧
      Exclusive (Function.update o.holds x none) allocated := by
  have hholds := holds_of_region hx
  by_cases hbase : r.base = 0
  · rw [if_pos hbase] at hholds
    exact ⟨o.allocated, if_pos hbase, h.keep hholds⟩
  · rw [if_neg hbase] at hholds
    refine ⟨o.allocated.erase r.base, ?_, h.release hholds⟩
    rw [Objects.deleteArray, if_neg hbase, if_pos (h.mem hholds)]

theorem next_base (r : MemoryRegion) (call : Call) : (r.next call).base = r.base ∧ (r.next call).capacity = r.capacity := by
  have h := r.next_effect call
  generalize r.next call = r' at h
  cases h <;> exact ⟨rfl, rfl⟩

theorem Owned.exec (h : o.Owned) (e : Statement) (hok : o.Promised e) : ∃ o', o.exec e = some o' ∧ o'.Owned := by
  cases e with
  | construct x capacity block =>
    obtain ⟨hx, hfresh, -⟩ := hok
    refine ⟨_, rfl, ?_⟩
    rw [Owned, holds_set, MemoryRegion.construct]
    by_cases hcapacity : capacity = 0
    · simpa [hcapacity, set] using h.keep (holds_of_none hx)
    · have hacquire := h.acquire (holds_of_none hx) hfresh
      have hblock : (block : ℕ) ≠ 0 := block.ne_zero
      simp only [ne_eq, hcapacity, not_false_eq_true, ↓reduceIte, Option.bind_some, hblock]
      exact hacquire
  | moveConstruct x y =>
    obtain ⟨hx, hy⟩ := hok
    obtain ⟨other, hy⟩ := Option.isSome_iff_exists.mp hy
    refine ⟨_, congrArg (Option.map _) hy, ?_⟩
    rw [Owned, holds_set, holds_set]
    have htransfer := h.transfer (y := y) (holds_of_none hx)
    rw [holds_of_region hy] at htransfer
    exact htransfer
  | moveAssign x y =>
    obtain ⟨hx, hy⟩ := hok
    obtain ⟨this, hx⟩ := Option.isSome_iff_exists.mp hx
    obtain ⟨other, hy⟩ := Option.isSome_iff_exists.mp hy
    simp only [Objects.exec, hx, hy]
    split_ifs with hxy
    · obtain ⟨allocated, hdelete, hreleased⟩ := h.deleteArray hx
      rw [hdelete]
      refine ⟨_, rfl, ?_⟩
      rw [Owned, holds_set, holds_set]
      have htransfer := hreleased.transfer (x := x) (y := y) (Function.update_self x none o.holds)
      rw [Function.update_of_ne (Ne.symm hxy), holds_of_region hy, Function.update_idem] at htransfer
      exact htransfer
    · exact ⟨o, rfl, h⟩
  | destroy x =>
    obtain ⟨this, hx⟩ := Option.isSome_iff_exists.mp hok
    obtain ⟨allocated, hdelete, hreleased⟩ := h.deleteArray hx
    refine ⟨{ o with allocated }.set x none, by simp only [Objects.exec, hx, hdelete, Option.map_some], ?_⟩
    rw [Owned, holds_set]
    exact hreleased
  | call x call =>
    obtain ⟨this, hx⟩ := Option.isSome_iff_exists.mp hok
    refine ⟨_, congrArg (Option.map _) hx, ?_⟩
    have hsame : Function.update o.holds x (if (this.next call).base = 0 then none else some (this.next call).base) =
        o.holds := by
      rw [(next_base this call).1, ← holds_of_region hx, Function.update_eq_self]
    rw [Owned, holds_set]
    exact hsame.symm ▸ h

def Clear (r s : MemoryRegion) : Prop :=
  r.base ≠ 0 → s.base ≠ 0 → Disjoint (Blocks r.base r.capacity) (Blocks s.base s.capacity)

structure Apart (o : Objects) : Prop where
  kept : ∀ x r, o.region x = some r → r.Kept
  null : ∀ x r, o.region x = some r → r.base = 0 → r.segments = []
  clear : ∀ x y r s, x ≠ y → o.region x = some r → o.region y = some s → Clear r s

theorem Clear.symm {r s : MemoryRegion} (h : Clear r s) : Clear s r := fun hs hr => (h hr hs).symm

theorem clear_movedFrom (s : MemoryRegion) : Clear .movedFrom s := fun h => absurd rfl h

theorem movedFrom_kept : MemoryRegion.movedFrom.Kept := ⟨LaidOut.nil, UInt64.le_iff_toNat_le.mpr (Nat.zero_le _)⟩

theorem Apart.set_none (h : o.Apart) (x : String) : (o.set x none).Apart := by
  have hold {y : String} {s : MemoryRegion} (hy : (o.set x none).region y = some s) : o.region y = some s := by
    simp only [set, Function.update_apply] at hy
    split_ifs at hy
    exact hy
  refine ⟨fun y s hy => h.kept y s (hold hy), fun y s hy => h.null y s (hold hy), fun y z s t hyz hy hz => ?_⟩
  exact h.clear y z s t hyz (hold hy) (hold hz)

theorem Apart.set (h : o.Apart) (hkept : r.Kept) (hnull : r.base = 0 → r.segments = [])
    (hclear : ∀ y s, y ≠ x → o.region y = some s → Clear r s) : (o.set x (some r)).Apart := by
  have hcases {y : String} {s : MemoryRegion} (hy : (o.set x (some r)).region y = some s) :
      y = x ∧ r = s ∨ y ≠ x ∧ o.region y = some s := by
    simp only [Objects.set, Function.update_apply] at hy
    split_ifs at hy with hyx
    · exact .inl ⟨hyx, Option.some.inj hy⟩
    · exact .inr ⟨hyx, hy⟩
  constructor
  · intro y s hy
    rcases hcases hy with ⟨-, rfl⟩ | ⟨-, hold⟩
    · exact hkept
    · exact h.kept y s hold
  · intro y s hy
    rcases hcases hy with ⟨-, rfl⟩ | ⟨-, hold⟩
    · exact hnull
    · exact h.null y s hold
  · intro y z s t hyz hy hz
    rcases hcases hy with ⟨rfl, rfl⟩ | ⟨hyx, hold⟩ <;> rcases hcases hz with ⟨rfl, rfl⟩ | ⟨hzx, hold'⟩
    · exact absurd rfl hyz
    · exact hclear z t hzx hold'
    · exact (hclear y s hyx hold).symm
    · exact h.clear y z s t hyz hold hold'

theorem next_null (h : r.base = 0 → r.segments = []) (call : Call) :
    (r.next call).base = 0 → (r.next call).segments = [] := by
  have he := r.next_effect call
  generalize r.next call = r' at he
  intro hbase
  cases he with
  | refused | unknown => exact h hbase
  | appended hne => exact absurd hbase hne
  | reclaimed init seg hsegments =>
    rw [h hbase] at hsegments
    simp at hsegments
  | stranded init seg rest hsegments =>
    rw [h hbase] at hsegments
    simp at hsegments

theorem Apart.take (h : o.Apart) (hxy : x ≠ y) {other : MemoryRegion} (hy : o.region y = some other) :
    ((o.set x (some ⟨other.base, other.capacity, other.used, other.segments⟩)).set y (some .movedFrom)).Apart := by
  have hcomm : (o.set x (some ⟨other.base, other.capacity, other.used, other.segments⟩)).set y (some .movedFrom) =
      (o.set y (some .movedFrom)).set x (some ⟨other.base, other.capacity, other.used, other.segments⟩) := by
    simp only [Objects.set, Function.update_comm hxy]
  have hleft : (o.set y (some .movedFrom)).Apart :=
    h.set movedFrom_kept (fun _ => rfl) fun z s _ _ => clear_movedFrom s
  rw [hcomm]
  apply hleft.set
  · exact ⟨(h.kept y other hy).laid, (h.kept y other hy).bound⟩
  · exact h.null y other hy
  · intro z s hzx hz
    simp only [Objects.set, Function.update_apply] at hz
    split_ifs at hz with hzy
    · obtain rfl := Option.some.inj hz
      exact (clear_movedFrom _).symm
    · exact h.clear y z other s (Ne.symm hzy) hy hz

theorem deleteArray_region {base : ℕ} (h : o.deleteArray base = some o') : o'.region = o.region := by
  unfold deleteArray at h
  split_ifs at h <;> · obtain rfl := Option.some.inj h; rfl

theorem Apart.congr (h : o.Apart) (hregion : o'.region = o.region) : o'.Apart := by
  constructor
  · rw [hregion]
    exact h.kept
  · rw [hregion]
    exact h.null
  · rw [hregion]
    exact h.clear

theorem Apart.exec (h : o.Apart) (e : Statement) (hok : o.Promised e) (hunwrapped : o.Unwrapped e)
    (ho : o.exec e = some o') : o'.Apart := by
  cases e with
  | construct x capacity block =>
    obtain ⟨-, -, hfresh⟩ := hok
    obtain rfl := Option.some.inj ho
    have hset : (o.set x (some (.construct capacity block))).Apart := by
      apply h.set (MemoryRegion.construct_kept capacity block)
      · intro _
        rfl
      · intro y s _ hy hbase hs
        have hcapacity : capacity ≠ 0 := fun hzero => hbase (by simp [MemoryRegion.construct, hzero])
        have hblock : (MemoryRegion.construct capacity block).base = block := if_pos hcapacity
        rw [hblock]
        exact hfresh y s hy hs
    apply hset.congr
    split_ifs <;> rfl
  | moveConstruct x y =>
    obtain ⟨hx, -⟩ := hok
    obtain ⟨other, hy, rfl⟩ := Option.map_eq_some_iff.mp ho
    apply h.take _ hy
    rintro rfl
    rw [hx] at hy
    cases hy
  | moveAssign x y =>
    simp only [Objects.exec] at ho
    split at ho
    · rename_i this other hx hy
      split_ifs at ho with hxy
      · obtain ⟨o₁, hdelete, rfl⟩ := Option.map_eq_some_iff.mp ho
        have hregion := deleteArray_region hdelete
        exact (h.congr hregion).take hxy (by rw [hregion, hy])
      · obtain rfl := Option.some.inj ho
        exact h
    · cases ho
  | destroy x =>
    simp only [Objects.exec] at ho
    split at ho
    · obtain ⟨o₁, hdelete, rfl⟩ := Option.map_eq_some_iff.mp ho
      exact (h.congr (deleteArray_region hdelete)).set_none x
    · cases ho
  | call x call =>
    obtain ⟨this, hx, rfl⟩ := Option.map_eq_some_iff.mp ho
    obtain ⟨hbase, hcapacity⟩ := next_base this call
    apply h.set ((h.kept x this hx).next (hunwrapped this hx)) (next_null (h.null x this hx) call)
    intro y s hyx hy
    rw [Clear, hbase, hcapacity]
    exact h.clear x y this s (Ne.symm hyx) hx hy

structure SegmentsApart (o : Objects) : Prop where
  inside : ∀ x r, o.region x = some r → ∀ seg ∈ r.segments, seg.bytes ⊆ Blocks r.base r.capacity
  within : ∀ x r, o.region x = some r → r.segments.Pairwise fun a b => Disjoint a.bytes b.bytes
  between : ∀ x y r s, x ≠ y → o.region x = some r → o.region y = some s →
    ∀ seg ∈ r.segments, ∀ seg' ∈ s.segments, Disjoint seg.bytes seg'.bytes

theorem Apart.segmentsApart (h : o.Apart) : o.SegmentsApart := by
  have hinside (x : String) (r : MemoryRegion) (hx : o.region x = some r) (seg : MemorySegment)
      (hseg : seg ∈ r.segments) : seg.bytes ⊆ Blocks r.base r.capacity := by
    have hkept := h.kept x r hx
    have hlower := hkept.laid.lower seg hseg
    have hupper := hkept.laid.upper seg hseg
    have hbound := UInt64.le_iff_toNat_le.mp hkept.bound
    exact Set.Ico_subset_Ico hlower (hupper.trans (Nat.add_le_add_left hbound r.base))
  refine ⟨hinside, fun x r hx => (h.kept x r hx).laid.disjoint, ?_⟩
  intro x y r s hxy hx hy seg hseg seg' hseg'
  have hr : r.base ≠ 0 := fun hzero => by simp [h.null x r hx hzero] at hseg
  have hs : s.base ≠ 0 := fun hzero => by simp [h.null y s hy hzero] at hseg'
  exact (h.clear x y r s hxy hx hy hr hs).mono (hinside x r hx seg hseg) (hinside y s hy seg' hseg')

theorem empty_owned : empty.Owned := .empty

theorem empty_apart : empty.Apart :=
  ⟨fun _ _ h => (Option.some_ne_none _ h.symm).elim, fun _ _ h => (Option.some_ne_none _ h.symm).elim,
    fun _ _ _ _ _ h => (Option.some_ne_none _ h.symm).elim⟩

theorem blocks_owned (program : List Statement)
    (hok : Run.Guarded next (fun s e => ∀ o, s = some o → o.Promised e) (some empty) program) :
    Run.Always next (fun s => ∃ o, s = some o ∧ o.Owned ∧ ((∀ x, o.region x = none) → o.allocated = []))
      (some empty) program := by
  intro pre hpre
  have halways := hok.always (J := fun s => ∃ o, s = some o ∧ o.Owned) ?_ ⟨empty, rfl, empty_owned⟩ pre hpre
  · obtain ⟨o, ho, howned⟩ := halways
    exact ⟨o, ho, howned, fun hnone => howned.eq_nil fun x => holds_of_none (hnone x)⟩
  · rintro s e ⟨o, rfl, howned⟩ hpromised
    exact howned.exec e (hpromised o rfl)

theorem blocks_disjoint {base base' : ℕ} {capacity capacity' : UInt64} (h : base' + capacity'.toNat ≤ base) :
    Disjoint (Blocks base capacity) (Blocks base' capacity') := by
  rw [Set.disjoint_left]
  rintro n ⟨hlower, -⟩ ⟨-, hupper⟩
  omega

def exchange : List Statement :=
  [.construct "a" 64 4096, .call "a" (.allocate 8 (.read ||| .write) .heap), .construct "b" 16 8192, .moveAssign "b" "a",
    .moveConstruct "c" "b", .destroy "b", .destroy "a", .destroy "c"]

theorem exchange_allowed : Run.Guarded next (fun s e => ∀ o, s = some o → o.Promised e ∧ o.Unwrapped e)
    (some empty) exchange := by
  refine ⟨?_, ?_, ?_, ?_, ?_, ?_, ?_, ?_, trivial⟩
  all_goals
    intro o ho
    obtain rfl := Option.some.inj ho
  · exact ⟨⟨rfl, List.not_mem_nil, fun y r hy => by cases hy⟩, trivial⟩
  · refine ⟨rfl, fun r hr => ?_⟩
    obtain rfl := Option.some.inj hr
    intro _ _ _
    decide
  · refine ⟨⟨rfl, by decide, fun y r hy _ => ?_⟩, trivial⟩
    have hr : r.base = 4096 ∧ r.capacity = 64 := by
      change ((empty.set "a" (some (.construct 64 4096))).set "a"
        (some (MemoryRegion.next (.construct 64 4096) (.allocate 8 (.read ||| .write) .heap)))).region y = some r at hy
      simp only [set, Function.update_idem, Function.update_apply] at hy
      split_ifs at hy
      · obtain rfl := Option.some.inj hy
        exact ⟨rfl, rfl⟩
      · cases hy
    rw [hr.1, hr.2]
    exact blocks_disjoint (by decide)
  · exact ⟨⟨rfl, rfl⟩, trivial⟩
  · exact ⟨⟨rfl, rfl⟩, trivial⟩
  · exact ⟨rfl, trivial⟩
  · exact ⟨rfl, trivial⟩
  · exact ⟨rfl, trivial⟩

theorem segments_apart (program : List Statement)
    (hok : Run.Guarded next (fun s e => ∀ o, s = some o → o.Promised e ∧ o.Unwrapped e) (some empty) program) :
    Run.Always next (fun s => ∃ o, s = some o ∧ o.SegmentsApart) (some empty) program := by
  intro pre hpre
  have halways := hok.always (J := fun s => ∃ o, s = some o ∧ o.Owned ∧ o.Apart) ?_
    ⟨empty, rfl, empty_owned, empty_apart⟩ pre hpre
  · obtain ⟨o, ho, -, hapart⟩ := halways
    exact ⟨o, ho, hapart.segmentsApart⟩
  · rintro s e ⟨o, rfl, howned, hapart⟩ hallowed
    obtain ⟨hpromised, hunwrapped⟩ := hallowed o rfl
    obtain ⟨o', ho', howned'⟩ := howned.exec e hpromised
    exact ⟨o', ho', howned', hapart.exec e hpromised hunwrapped ho'⟩

theorem blocks_owned_exchange :
    Run.Always next (fun s => ∃ o, s = some o ∧ o.Owned ∧ ((∀ x, o.region x = none) → o.allocated = []))
      (some empty) exchange :=
  blocks_owned exchange (exchange_allowed.imp fun _ _ h o ho => (h o ho).1)

theorem segments_apart_exchange : Run.Always next (fun s => ∃ o, s = some o ∧ o.SegmentsApart) (some empty) exchange :=
  segments_apart exchange exchange_allowed

end Objects

end TrinityOS.Memory
