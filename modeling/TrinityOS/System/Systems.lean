import TrinityOS.Memory.Objects
import TrinityOS.System.CoreSystem

namespace TrinityOS.System

open Memory (MemoryRegion Objects)

/-- The `CoreSystem` objects in scope, by name, each with where its `unique_ptr` points, and the
regions that `make_unique` has put on the heap. -/
structure Systems where
  pointer : String → Option (Option String)
  heap : Objects

namespace Systems

/-- `object` is what `make_unique` returns, in a call that makes a region. -/
inductive Statement where
  | construct (x : String)
  | call (x : String) (call : Call) (object : String)
  | destroy (x : String)

def empty : Systems := ⟨fun _ => none, .empty⟩

def deletePointee (heap : Objects) : Option String → Option Objects
  | none => some heap
  | some object => heap.exec (.destroy object)

/-- The new region is there before the one it replaces is deleted. -/
def initProcessMemory (m : Systems) (x : String) (pointer : Option String) (capacity : UInt64) (block : ℕ+)
    (object : String) : Option Systems :=
  (m.heap.exec (.construct object capacity block)).bind fun heap =>
    (deletePointee heap pointer).map fun heap => ⟨Function.update m.pointer x (some (some object)), heap⟩

def forward (m : Systems) (pointer : Option String) (call : Memory.Call) : Option Systems :=
  match pointer with
  | none => some m
  | some object => (m.heap.exec (.call object call)).map fun heap => { m with heap }

def exec (m : Systems) : Statement → Option Systems
  | .construct x => some { m with pointer := Function.update m.pointer x (some none) }
  | .call x call object => (m.pointer x).bind fun pointer =>
    match call with
    | .initProcessMemory capacity block => m.initProcessMemory x pointer capacity block object
    | .memoryAllocate size perm type => m.forward pointer (.allocate size perm type)
    | .memoryFree addr => m.forward pointer (.free addr)
  | .destroy x => (m.pointer x).bind fun pointer =>
    (deletePointee m.heap pointer).map fun heap => ⟨Function.update m.pointer x none, heap⟩

def next (m : Option Systems) (e : Statement) : Option Systems := m.bind fun m => m.exec e

def view (m : Systems) (x : String) : Option CoreSystem :=
  (m.pointer x).map fun pointer => ⟨pointer.bind m.heap.region⟩

def alone (x : String) (s : Option CoreSystem) : Statement → Option CoreSystem
  | .construct y => if y = x then some ⟨none⟩ else s
  | .call y call _ => if y = x then s.map fun s => s.next call else s
  | .destroy y => if y = x then none else s

def Promised (m : Systems) : Statement → Prop
  | .construct x => m.pointer x = none
  | .call x (.initProcessMemory capacity block) object =>
    (m.pointer x).isSome ∧ m.heap.Promised (.construct object capacity block)
  | .call x _ _ => (m.pointer x).isSome
  | .destroy x => (m.pointer x).isSome

def Unwrapped (m : Systems) : Statement → Prop
  | .call x call _ => ∀ s, m.view x = some s → s.AcceptsUnwrapped call
  | _ => True

def holds (m : Systems) (x : String) : Option String := (m.pointer x).join

def cleared (heap : Objects) : Option String → Objects
  | none => heap
  | some object => heap.set object none

def Held (points : String → Option String) (heap : Objects) : Prop :=
  ∃ objects, Exclusive points objects ∧ ∀ object, object ∈ objects ↔ (heap.region object).isSome

structure Sound (m : Systems) : Prop where
  owned : m.heap.Owned
  apart : m.heap.Apart
  held : Held m.holds m.heap

structure Isolated (m : Systems) : Prop where
  inside : ∀ x r, m.view x = some ⟨some r⟩ → ∀ seg ∈ r.segments, seg.bytes ⊆ Objects.Blocks r.base r.capacity
  bounded : ∀ x s, m.view x = some s → s.Bounded
  between : ∀ x y r s, x ≠ y → m.view x = some ⟨some r⟩ → m.view y = some ⟨some s⟩ →
    ∀ seg ∈ r.segments, ∀ seg' ∈ s.segments, Disjoint seg.bytes seg'.bytes
  foreign : ∀ x y s object, x ≠ y → (m.view x).isSome → m.view y = some ⟨some s⟩ →
    ∀ seg ∈ s.segments, m.exec (.call x (.memoryFree seg.address) object) = some m
  reclaimed : (∀ x, m.view x = none) → m.heap = .empty

variable {m m' : Systems} {heap heap' : Objects} {points : String → Option String} {x y object : String}
  {pointer : Option String} {e : Statement}

theorem exec_construct_region {capacity : UInt64} {block : ℕ+}
    (h : heap.exec (.construct object capacity block) = some heap') :
    heap'.region = Function.update heap.region object (some (.construct capacity block)) := by
  obtain rfl := Option.some.inj h
  rw [Objects.set]
  split_ifs <;> rfl

theorem exec_call_region {call : Memory.Call} (h : heap.exec (.call object call) = some heap') :
    ∃ r, heap.region object = some r ∧ heap'.region = Function.update heap.region object (some (r.next call)) := by
  obtain ⟨r, hr, rfl⟩ := Option.map_eq_some_iff.mp h
  exact ⟨r, hr, rfl⟩

theorem exec_destroy_region (h : heap.exec (.destroy object) = some heap') :
    heap'.region = Function.update heap.region object none := by
  simp only [Objects.exec] at h
  split at h
  · obtain ⟨heap₁, hdelete, rfl⟩ := Option.map_eq_some_iff.mp h
    rw [Objects.set, Objects.deleteArray_region hdelete]
  · cases h

theorem cleared_region (h : pointer ≠ some object) : (cleared heap pointer).region object = heap.region object := by
  cases pointer with
  | none => rfl
  | some deleted =>
    have hne : object ≠ deleted := by
      rintro rfl
      exact h rfl
    exact Function.update_of_ne hne none heap.region

theorem cleared_comm (h : pointer ≠ some object) {r : Option MemoryRegion}
    (hregion : heap'.region = Function.update heap.region object r) :
    (cleared heap' pointer).region = Function.update (cleared heap pointer).region object r := by
  cases pointer with
  | none => exact hregion
  | some deleted =>
    have hne : deleted ≠ object := by
      rintro rfl
      exact h rfl
    rw [cleared, cleared, Objects.set, Objects.set, hregion, Function.update_comm hne]

theorem exec_heap (howned : heap.Owned) (hapart : heap.Apart) (e : Memory.Statement) (hpromised : heap.Promised e)
    (hunwrapped : heap.Unwrapped e) : ∃ heap', heap.exec e = some heap' ∧ heap'.Owned ∧ heap'.Apart := by
  obtain ⟨heap', hexec, howned'⟩ := howned.exec e hpromised
  exact ⟨heap', hexec, howned', hapart.exec e hpromised hunwrapped hexec⟩

theorem deletePointee_heap (pointer : Option String) (howned : heap.Owned) (hapart : heap.Apart)
    (hsome : ∀ object, pointer = some object → (heap.region object).isSome) :
    ∃ heap', deletePointee heap pointer = some heap' ∧ heap'.Owned ∧ heap'.Apart ∧
      heap'.region = (cleared heap pointer).region := by
  cases pointer with
  | none => exact ⟨heap, rfl, howned, hapart, rfl⟩
  | some object =>
    obtain ⟨heap', hexec, howned', hapart'⟩ := exec_heap howned hapart (.destroy object) (hsome object rfl) trivial
    exact ⟨heap', hexec, howned', hapart', exec_destroy_region hexec⟩

theorem Held.region (h : Held points heap) (hx : points x = some object) : (heap.region object).isSome := by
  obtain ⟨objects, hexclusive, hobjects⟩ := h
  exact (hobjects object).mp (hexclusive.mem hx)

theorem Held.ne (h : Held points heap) (hxy : x ≠ y) (hx : points x = some object) : points y ≠ some object := by
  obtain ⟨objects, hexclusive, -⟩ := h
  intro hy
  exact hxy (hexclusive.single x y object hx hy)

theorem Held.congr (h : Held points heap) (hregion : ∀ object, (heap'.region object).isSome = (heap.region object).isSome) :
    Held points heap' := by
  obtain ⟨objects, hexclusive, hobjects⟩ := h
  exact ⟨objects, hexclusive, fun object => by rw [hobjects, hregion]⟩

theorem Held.acquire (h : Held points heap) (hx : points x = none) (hfresh : heap.region object = none)
    {r : MemoryRegion} (hregion : heap'.region = Function.update heap.region object (some r)) :
    Held (Function.update points x (some object)) heap' := by
  obtain ⟨objects, hexclusive, hobjects⟩ := h
  have hnot : object ∉ objects := by
    rw [hobjects, hfresh]
    exact Bool.false_ne_true
  refine ⟨object :: objects, hexclusive.acquire hx hnot, fun other => ?_⟩
  rw [List.mem_cons, hobjects, hregion, Function.update_apply]
  split_ifs with heq
  · simp [heq]
  · simp [heq]

theorem Held.release (h : Held points heap) (hx : points x = pointer)
    (hregion : heap'.region = (cleared heap pointer).region) :
    Held (Function.update points x none) heap' := by
  cases pointer with
  | none =>
    obtain ⟨objects, hexclusive, hobjects⟩ := h
    exact ⟨objects, hexclusive.keep hx, fun object => by rw [hobjects, hregion, cleared]⟩
  | some deleted =>
    obtain ⟨objects, hexclusive, hobjects⟩ := h
    refine ⟨objects.erase deleted, hexclusive.release hx, fun other => ?_⟩
    rw [hexclusive.nodup.mem_erase_iff, hobjects, hregion]
    simp only [cleared, Objects.set, Function.update_apply]
    split_ifs with heq
    · simp [heq]
    · simp [heq]

theorem holds_of_pointer (h : m.pointer x = some pointer) : m.holds x = pointer := by
  rw [Systems.holds, h]
  rfl

theorem holds_update (m : Systems) (x : String) (pointer : Option (Option String)) (heap : Objects) :
    holds ⟨Function.update m.pointer x pointer, heap⟩ = Function.update m.holds x pointer.join := by
  funext y
  by_cases hy : y = x
  · simp [Systems.holds, hy]
  · simp [Systems.holds, hy]

theorem view_of_pointer (h : m.pointer x = some pointer) : m.view x = some ⟨pointer.bind m.heap.region⟩ := by
  rw [view, h, Option.map_some]

theorem view_eq_none : m.view x = none ↔ m.pointer x = none := Option.map_eq_none_iff

theorem view_eq_region {r : MemoryRegion} (h : m.view x = some ⟨some r⟩) :
    ∃ object, m.holds x = some object ∧ m.heap.region object = some r := by
  obtain ⟨pointer, hpointer, hview⟩ := Option.map_eq_some_iff.mp h
  rw [CoreSystem.mk.injEq] at hview
  obtain ⟨object, rfl, hr⟩ := Option.bind_eq_some_iff.mp hview
  exact ⟨object, holds_of_pointer hpointer, hr⟩

theorem view_frame (hpointer : m'.pointer y = m.pointer y)
    (hregion : ∀ object, m.holds y = some object → m'.heap.region object = m.heap.region object) :
    m'.view y = m.view y := by
  rw [view, view, hpointer]
  cases hy : m.pointer y with
  | none => rfl
  | some pointer =>
    cases pointer with
    | none => rfl
    | some object =>
      rw [Option.map_some, Option.map_some, Option.bind_some, Option.bind_some, hregion object (holds_of_pointer hy)]

def Does (m : Systems) (e : Statement) (x : String) (s : Option CoreSystem) : Prop :=
  ∃ m', m.exec e = some m' ∧ m'.Sound ∧ m'.view x = s ∧ ∀ y, y ≠ x → m'.view y = m.view y

theorem Sound.construct (h : m.Sound) (hx : m.pointer x = none) : m.Does (.construct x) x (some ⟨none⟩) := by
  refine ⟨_, rfl, ⟨h.owned, h.apart, ?_⟩, ?_, ?_⟩
  · have hnone : m.holds x = none := by rw [Systems.holds, hx, Option.join_none]
    rw [holds_update]
    exact h.held.release hnone rfl
  · simp only [view, Function.update_self, Option.map_some, Option.bind_none]
  · intro y hyx
    exact view_frame (Function.update_of_ne hyx _ m.pointer) fun _ _ => rfl

theorem Sound.destroy (h : m.Sound) (hx : m.pointer x = some pointer) : m.Does (.destroy x) x none := by
  have hholds := holds_of_pointer hx
  obtain ⟨heap, hdelete, howned, hapart, hregion⟩ := deletePointee_heap pointer h.owned h.apart <| by
    rintro object rfl
    exact h.held.region hholds
  refine ⟨⟨Function.update m.pointer x none, heap⟩, ?_, ⟨howned, hapart, ?_⟩, ?_, ?_⟩
  · rw [Systems.exec, hx, Option.bind_some, hdelete, Option.map_some]
  · rw [holds_update]
    exact h.held.release hholds hregion
  · exact view_eq_none.mpr (Function.update_self x _ m.pointer)
  · intro y hyx
    apply view_frame (Function.update_of_ne hyx _ m.pointer)
    intro object hy
    have hne : pointer ≠ some object := hholds ▸ h.held.ne hyx hy
    rw [hregion, cleared_region hne]

theorem Sound.initProcessMemory (h : m.Sound) (hx : m.pointer x = some pointer) {capacity : UInt64} {block : ℕ+}
    (hnew : m.heap.Promised (.construct object capacity block)) :
    m.Does (.call x (.initProcessMemory capacity block) object) x (some ⟨some (.construct capacity block)⟩) := by
  have hholds := holds_of_pointer hx
  have hfresh : m.heap.region object = none := hnew.1
  have hne {z other : String} (hz : m.holds z = some other) : other ≠ object := by
    rintro rfl
    have hsome := h.held.region hz
    rw [hfresh] at hsome
    cases hsome
  have hold : pointer ≠ some object := by
    rintro rfl
    exact hne hholds rfl
  obtain ⟨heap₁, hconstruct, howned₁, hapart₁⟩ := exec_heap h.owned h.apart _ hnew trivial
  have hregion₁ := exec_construct_region hconstruct
  obtain ⟨heap, hdelete, howned, hapart, hregion⟩ := deletePointee_heap pointer howned₁ hapart₁ <| by
    rintro deleted rfl
    rw [hregion₁, Function.update_of_ne (hne hholds)]
    exact h.held.region hholds
  rw [cleared_comm hold hregion₁] at hregion
  refine ⟨⟨Function.update m.pointer x (some (some object)), heap⟩, ?_, ⟨howned, hapart, ?_⟩, ?_, ?_⟩
  · rw [Systems.exec, hx, Option.bind_some]
    simp only [Systems.initProcessMemory, hconstruct, Option.bind_some, hdelete, Option.map_some]
  · -- to the holders it is as if the old region had gone before the new one came
    have hreleased : Held (Function.update m.holds x none) (cleared m.heap pointer) := h.held.release hholds rfl
    have hacquired := hreleased.acquire (Function.update_self x none m.holds)
      (by rw [cleared_region hold, hfresh]) hregion
    rw [Function.update_idem] at hacquired
    rw [holds_update]
    exact hacquired
  · simp only [view, Function.update_self, Option.map_some, Option.bind_some, hregion]
  · intro y hyx
    apply view_frame (Function.update_of_ne hyx _ m.pointer)
    intro other hy
    have hkeep : pointer ≠ some other := hholds ▸ h.held.ne hyx hy
    rw [hregion, Function.update_of_ne (hne hy), cleared_region hkeep]

theorem Sound.forward (h : m.Sound) (hx : m.pointer x = some pointer) (call : Memory.Call)
    (hunwrapped : ∀ r, m.view x = some ⟨some r⟩ → r.AcceptsUnwrapped call) :
    ∃ m', m.forward pointer call = some m' ∧ m'.Sound ∧
      m'.view x = some ⟨(pointer.bind m.heap.region).map fun r => r.next call⟩ ∧ ∀ y, y ≠ x → m'.view y = m.view y := by
  have hview := view_of_pointer hx
  cases pointer with
  | none => exact ⟨m, rfl, h, hview, fun _ _ => rfl⟩
  | some object =>
    have hholds := holds_of_pointer hx
    have hsome := h.held.region hholds
    obtain ⟨r, hr⟩ := Option.isSome_iff_exists.mp hsome
    rw [Option.bind_some, hr] at hview
    obtain ⟨heap, hexec, howned, hapart⟩ := exec_heap h.owned h.apart (.call object call) hsome fun r' hr' => by
      obtain rfl := Option.some.inj (hr.symm.trans hr')
      exact hunwrapped r hview
    obtain ⟨r', hr', hregion⟩ := exec_call_region hexec
    obtain rfl := Option.some.inj (hr.symm.trans hr')
    refine ⟨{ m with heap }, ?_, ⟨howned, hapart, ?_⟩, ?_, ?_⟩
    · rw [Systems.forward, hexec, Option.map_some]
    · apply h.held.congr
      intro other
      rw [hregion, Function.update_apply]
      split_ifs with heq
      · rw [heq, hr, Option.isSome_some, Option.isSome_some]
      · rfl
    · rw [view_of_pointer (m := { m with heap }) hx, Option.bind_some, Option.bind_some, hr, hregion,
        Function.update_self, Option.map_some]
    · intro y hyx
      have hpointer : ({ m with heap } : Systems).pointer y = m.pointer y := rfl
      apply view_frame hpointer
      intro other hy
      have hne : other ≠ object := by
        rintro rfl
        exact h.held.ne hyx hy hholds
      rw [hregion, Function.update_of_ne hne]

theorem next_allocate (s : CoreSystem) (size : UInt64) (perm : Memory.MemoryPermission)
    (type : Memory.MemoryType) : s.next (.memoryAllocate size perm type) =
      ⟨s.region.map fun r => r.next (.allocate size perm type)⟩ := by
  obtain ⟨region⟩ := s
  cases region <;> rfl

theorem next_free (s : CoreSystem) (addr : ℕ) :
    s.next (.memoryFree addr) = ⟨s.region.map fun r => r.next (.free addr)⟩ := by
  obtain ⟨region⟩ := s
  cases region <;> rfl

def Statement.name : Statement → String
  | .construct x | .call x _ _ | .destroy x => x

theorem Sound.exec (h : m.Sound) (e : Statement) (hpromised : m.Promised e) (hunwrapped : m.Unwrapped e) :
    m.Does e e.name (alone e.name (m.view e.name) e) := by
  cases e with
  | construct x =>
    simp only [alone, Statement.name, ↓reduceIte]
    exact h.construct hpromised
  | destroy x =>
    obtain ⟨pointer, hx⟩ := Option.isSome_iff_exists.mp hpromised
    simp only [alone, Statement.name, ↓reduceIte]
    exact h.destroy hx
  | call x call object =>
    simp only [alone, Statement.name, ↓reduceIte]
    cases call with
    | initProcessMemory capacity block =>
      obtain ⟨hsome, hnew⟩ := hpromised
      obtain ⟨pointer, hx⟩ := Option.isSome_iff_exists.mp hsome
      rw [view_of_pointer hx, Option.map_some]
      exact h.initProcessMemory hx hnew
    | memoryAllocate size perm type =>
      obtain ⟨pointer, hx⟩ := Option.isSome_iff_exists.mp hpromised
      obtain ⟨m', hforward, hresult⟩ := h.forward hx (.allocate size perm type) fun r hr => hunwrapped _ hr r rfl
      refine ⟨m', ?_, ?_⟩
      · rw [Systems.exec, hx, Option.bind_some]
        exact hforward
      · rw [view_of_pointer hx, Option.map_some, next_allocate]
        exact hresult
    | memoryFree addr =>
      obtain ⟨pointer, hx⟩ := Option.isSome_iff_exists.mp hpromised
      obtain ⟨m', hforward, hresult⟩ := h.forward hx (.free addr) fun _ _ => trivial
      refine ⟨m', ?_, ?_⟩
      · rw [Systems.exec, hx, Option.bind_some]
        exact hforward
      · rw [view_of_pointer hx, Option.map_some, next_free]
        exact hresult

theorem alone_of_ne (h : y ≠ e.name) (s : Option CoreSystem) : alone y s e = s := by
  cases e <;> exact if_neg (Ne.symm h)

theorem Sound.next (h : m.Sound) (e : Statement) (hpromised : m.Promised e) (hunwrapped : m.Unwrapped e) :
    ∃ m', m.exec e = some m' ∧ m'.Sound ∧ ∀ x, m'.view x = alone x (m.view x) e := by
  obtain ⟨m', hexec, hsound, hnamed, hothers⟩ := h.exec e hpromised hunwrapped
  refine ⟨m', hexec, hsound, fun x => ?_⟩
  by_cases hx : x = e.name
  · rw [hx, hnamed]
  · rw [hothers x hx, alone_of_ne hx]

theorem empty_sound : empty.Sound :=
  ⟨Objects.empty_owned, Objects.empty_apart, [], .empty, fun _ => iff_of_false List.not_mem_nil Bool.false_ne_true⟩

theorem Sound.free_unknown (h : m.Sound) (hx : m.pointer x = some pointer) {addr : ℕ}
    (hunknown : ∀ r, m.view x = some ⟨some r⟩ → ∀ seg ∈ r.segments, seg.address ≠ addr) :
    m.exec (.call x (.memoryFree addr) object) = some m := by
  rw [Systems.exec, hx, Option.bind_some]
  cases pointer with
  | none => rfl
  | some pointee =>
    obtain ⟨r, hr⟩ := Option.isSome_iff_exists.mp (h.held.region (holds_of_pointer hx))
    have hview := view_of_pointer hx
    rw [Option.bind_some, hr] at hview
    have hsame : r.next (.free addr) = r := by
      rcases MemoryRegion.free_cases r addr with ⟨-, hfree⟩ | ⟨init, seg, rest, hsegments, haddr, -⟩
      · rw [MemoryRegion.next, hfree]
      · exact absurd haddr (hunknown r hview seg (by simp [hsegments]))
    have hset : m.heap.set pointee (some r) = m.heap := by
      rw [Objects.set, Function.update_eq_self_iff.mpr hr.symm]
    simp only [Systems.forward, Objects.exec, hr, Option.map_some, hsame, hset]

theorem Sound.isolated (h : m.Sound) : m.Isolated := by
  have hsegments := h.apart.segmentsApart
  have hbetween (x y : String) (r s : MemoryRegion) (hxy : x ≠ y) (hx : m.view x = some ⟨some r⟩)
      (hy : m.view y = some ⟨some s⟩) : ∀ seg ∈ r.segments, ∀ seg' ∈ s.segments, Disjoint seg.bytes seg'.bytes := by
    obtain ⟨object, hholds, hr⟩ := view_eq_region hx
    obtain ⟨object', hholds', hs⟩ := view_eq_region hy
    have hne : object ≠ object' := by
      rintro rfl
      exact h.held.ne hxy hholds hholds'
    exact hsegments.between object object' r s hne hr hs
  constructor
  · intro x r hx
    obtain ⟨object, -, hr⟩ := view_eq_region hx
    exact hsegments.inside object r hr
  · intro x s hx
    refine CoreSystem.bounded_of_kept fun r hr => ?_
    obtain ⟨region⟩ := s
    obtain rfl : region = some r := hr
    obtain ⟨object, -, hr⟩ := view_eq_region hx
    exact h.apart.kept object r hr
  · exact hbetween
  · intro x y s object hxy hx hy seg hseg
    obtain ⟨pointer, hx⟩ := Option.isSome_iff_exists.mp (Option.isSome_map .. ▸ hx)
    refine h.free_unknown hx fun r hr seg' hseg' haddr => ?_
    obtain ⟨object', -, hs⟩ := view_eq_region hy
    obtain ⟨object, -, hr'⟩ := view_eq_region hr
    have hmem : seg.address ∈ seg.bytes := ⟨le_rfl, (h.apart.kept object' s hs).laid.nonempty seg hseg⟩
    have hmem' : seg'.address ∈ seg'.bytes := ⟨le_rfl, (h.apart.kept object r hr').laid.nonempty seg' hseg'⟩
    exact Set.disjoint_left.mp (hbetween x y r s hxy hr hy seg' hseg' seg hseg) hmem' (haddr ▸ hmem)
  · intro hnone
    obtain ⟨objects, hexclusive, hobjects⟩ := h.held
    have hgone (object : String) : m.heap.region object = none := by
      rw [← Option.not_isSome_iff_eq_none, ← hobjects, hexclusive.eq_nil fun x => ?_]
      · exact List.not_mem_nil
      · rw [Systems.holds, view_eq_none.mp (hnone x), Option.join_none]
    have hallocated := h.owned.eq_nil fun object => Objects.holds_of_none (hgone object)
    obtain ⟨pointer, region, allocated⟩ := m
    obtain rfl : region = fun _ => none := funext hgone
    obtain rfl : allocated = [] := hallocated
    rfl

theorem systems_isolated (program : List Statement)
    (hok : Run.Guarded next (fun s e => ∀ m, s = some m → m.Promised e ∧ m.Unwrapped e) (some empty) program) :
    ∀ pre, pre <+: program → ∃ m, Run.final next (some empty) pre = some m ∧ m.Isolated ∧
      ∀ x, m.view x = Run.final (alone x) none pre := by
  intro pre hpre
  have hJ (s : Option Systems) (e : Statement) (hs : ∃ m, s = some m ∧ m.Sound)
      (hallowed : ∀ m, s = some m → m.Promised e ∧ m.Unwrapped e) : ∃ m, next s e = some m ∧ m.Sound := by
    obtain ⟨m, rfl, hsound⟩ := hs
    obtain ⟨hpromised, hunwrapped⟩ := hallowed m rfl
    obtain ⟨m', hexec, hsound', -⟩ := hsound.next e hpromised hunwrapped
    exact ⟨m', hexec, hsound'⟩
  obtain ⟨m, hm, hsound⟩ := hok.always hJ ⟨empty, rfl, empty_sound⟩ pre hpre
  refine ⟨m, hm, hsound.isolated, fun x => ?_⟩
  have hproject := hok.project (fun s => s.bind fun m => m.view x) (alone x) hJ ?_ ⟨empty, rfl, empty_sound⟩ pre hpre
  · rw [hm, Option.bind_some] at hproject
    exact hproject
  · rintro s e ⟨m, rfl, hsound⟩ hallowed
    obtain ⟨hpromised, hunwrapped⟩ := hallowed m rfl
    obtain ⟨m', hexec, -, hview⟩ := hsound.next e hpromised hunwrapped
    rw [Systems.next, Option.bind_some, hexec]
    exact hview x

def neighbours : List Statement :=
  [.construct "a", .construct "b", .call "a" (.initProcessMemory 64 20480) "r",
    .call "a" (.memoryAllocate 8 (.read ||| .write) .heap) "", .call "b" (.initProcessMemory 16 24576) "s",
    .call "b" (.memoryFree 20480) "", .call "a" (.initProcessMemory 64 28672) "t", .destroy "a", .destroy "b"]

theorem neighbours_allowed :
    Run.Guarded next (fun s e => ∀ m, s = some m → m.Promised e ∧ m.Unwrapped e) (some empty) neighbours := by
  let first := MemoryRegion.next (.construct 64 20480) (.allocate 8 (.read ||| .write) .heap)
  refine ⟨?_, ?_, ?_, ?_, ?_, ?_, ?_, ?_, ?_, trivial⟩
  all_goals
    intro m hm
    obtain rfl := Option.some.inj hm
  · exact ⟨rfl, trivial⟩
  · exact ⟨rfl, trivial⟩
  · exact ⟨⟨rfl, rfl, List.not_mem_nil, fun y r hy => by cases hy⟩, fun _ _ => trivial⟩
  · refine ⟨rfl, fun s hs r hr => ?_⟩
    obtain rfl := Option.some.inj hs
    obtain rfl := Option.some.inj hr
    intro _ _ _
    decide
  · refine ⟨⟨rfl, rfl, by decide, fun y r hy _ => ?_⟩, fun _ _ => trivial⟩
    change ((Objects.empty.set "r" (some (.construct 64 20480))).set "r" (some first)).region y = some r at hy
    simp only [Objects.set, Function.update_apply] at hy
    split_ifs at hy
    · obtain rfl := Option.some.inj hy
      exact Objects.blocks_disjoint (by decide)
    · cases hy
  · exact ⟨rfl, fun _ _ => trivial⟩
  · refine ⟨⟨rfl, rfl, by decide, fun y r hy _ => ?_⟩, fun _ _ => trivial⟩
    change ((((Objects.empty.set "r" (some (.construct 64 20480))).set "r" (some first)).set "s"
      (some (.construct 16 24576))).set "s" (some (MemoryRegion.next (.construct 16 24576) (.free 20480)))).region y =
        some r at hy
    simp only [Objects.set, Function.update_apply] at hy
    split_ifs at hy
    · obtain rfl := Option.some.inj hy
      exact Objects.blocks_disjoint (by decide)
    · obtain rfl := Option.some.inj hy
      exact Objects.blocks_disjoint (by decide)
    · cases hy
  · exact ⟨rfl, trivial⟩
  · exact ⟨rfl, trivial⟩

theorem systems_isolated_neighbours : ∃ m, Run.final next (some empty) (neighbours.take 7) = some m ∧ m.Isolated ∧
    ∀ x, m.view x = Run.final (alone x) none (neighbours.take 7) :=
  systems_isolated neighbours neighbours_allowed (neighbours.take 7) (List.take_prefix 7 neighbours)

end Systems

end TrinityOS.System
