import Mathlib.Data.List.Count
import Mathlib.Logic.Function.Basic
import Mathlib.Logic.Relation

namespace TrinityOS.Locks

variable {ι κ : Type}

inductive Op (κ : Type) where
  | acquire (lock : κ)
  | release (lock : κ)

def within (lock : κ) (body : List (Op κ)) : List (Op κ) := .acquire lock :: body ++ [.release lock]

/-- Threads with what they still have to do, and re-entrant locks: a lock that has an owner
counts how often it was taken. -/
structure State (ι κ : Type) where
  owner : κ → Option ι
  count : κ → ℕ
  todo : ι → List (Op κ)

def start (programs : ι → List (Op κ)) : State ι κ := ⟨fun _ => none, fun _ => 0, programs⟩

variable [DecidableEq ι] [DecidableEq κ]

def State.acquire (s : State ι κ) (i : ι) (lock : κ) : State ι κ where
  owner := Function.update s.owner lock (some i)
  count := Function.update s.count lock (s.count lock + 1)
  todo := Function.update s.todo i (s.todo i).tail

def State.release (s : State ι κ) (i : ι) (lock : κ) : State ι κ where
  owner := if s.count lock = 1 then Function.update s.owner lock none else s.owner
  count := Function.update s.count lock (s.count lock - 1)
  todo := Function.update s.todo i (s.todo i).tail

inductive Step (s : State ι κ) : State ι κ → Prop
  | acquire (i : ι) (lock : κ) (rest : List (Op κ)) (htodo : s.todo i = .acquire lock :: rest)
      (hfree : s.owner lock = none ∨ s.owner lock = some i) : Step s (s.acquire i lock)
  | release (i : ι) (lock : κ) (rest : List (Op κ)) (htodo : s.todo i = .release lock :: rest)
      (howner : s.owner lock = some i) : Step s (s.release i lock)

/-- An order on some of the locks; each of the others is taken only under its gate. -/
structure Order (κ : Type) where
  rank : κ → ℕ
  gate : κ → Option κ

namespace Order

variable {o : Order κ} {held : List κ} {lock g : κ} {ops ops' : List (Op κ)}

section discipline

omit [DecidableEq ι] [DecidableEq κ]

def Allows (o : Order κ) (held : List κ) (lock : κ) : Prop :=
  lock ∈ held ∨ match o.gate lock with
    | some g => g ∈ held
    | none => ∀ l ∈ held, o.gate l = none → o.rank lock < o.rank l

def Follows (o : Order κ) : List κ → List (Op κ) → Prop
  | held, [] => held = []
  | held, .acquire lock :: ops => o.Allows held lock ∧ Follows o (lock :: held) ops
  | held, .release lock :: ops => ∃ rest, held = lock :: rest ∧ Follows o rest ops

def Balanced (o : Order κ) (held : List κ) (ops : List (Op κ)) : Prop :=
  ∀ rest, o.Follows held rest → o.Follows held (ops ++ rest)

theorem balanced_nil : o.Balanced held [] := fun _ h => h

theorem Balanced.append (h : o.Balanced held ops) (h' : o.Balanced held ops') : o.Balanced held (ops ++ ops') := by
  intro rest hrest
  rw [List.append_assoc]
  exact h _ (h' rest hrest)

theorem Balanced.within (hallows : o.Allows held lock) (h : o.Balanced (lock :: held) ops) :
    o.Balanced held (within lock ops) := by
  intro rest hrest
  have hbody : o.Follows (lock :: held) (ops ++ (.release lock :: rest)) := h _ ⟨held, rfl, hrest⟩
  have hops : Locks.within lock ops ++ rest = .acquire lock :: (ops ++ .release lock :: rest) := by
    simp [Locks.within]
  rw [hops]
  exact ⟨hallows, hbody⟩

theorem balanced_flatten {bodies : List (List (Op κ))} (h : ∀ ops ∈ bodies, o.Balanced held ops) :
    o.Balanced held bodies.flatten := by
  induction bodies with
  | nil => exact balanced_nil
  | cons ops bodies ih =>
    obtain ⟨hops, hbodies⟩ := List.forall_mem_cons.mp h
    exact hops.append (ih hbodies)

theorem Balanced.follows (h : o.Balanced [] ops) : o.Follows [] ops := by
  have hfollows := h [] rfl
  rwa [List.append_nil] at hfollows

def Gated (o : Order κ) : List κ → Prop
  | [] => True
  | lock :: held => (∀ g, o.gate lock = some g → g ∈ held) ∧ Gated o held

theorem Gated.mem (h : o.Gated held) (hl : lock ∈ held) (hg : o.gate lock = some g) : g ∈ held := by
  induction held with
  | nil => cases hl
  | cons l held ih =>
    obtain ⟨htop, hrest⟩ := h
    apply List.mem_cons_of_mem
    rcases List.mem_cons.mp hl with rfl | hl
    · exact htop g hg
    · exact ih hrest hl

theorem Gated.push (h : o.Gated held) (hallows : o.Allows held lock) : o.Gated (lock :: held) := by
  refine ⟨?_, h⟩
  intro g hg
  rcases hallows with hl | hgate
  · exact h.mem hl hg
  · rw [hg] at hgate
    exact hgate

end discipline

structure Kept (o : Order κ) (s : State ι κ) (held : ι → List κ) : Prop where
  follows : ∀ i, o.Follows (held i) (s.todo i)
  gated : ∀ i, o.Gated (held i)
  owner_iff : ∀ i lock, s.owner lock = some i ↔ lock ∈ held i
  count_eq : ∀ i, ∀ lock ∈ held i, s.count lock = (held i).count lock
  count_free : ∀ lock, s.owner lock = none → s.count lock = 0

variable {s s' : State ι κ} {held : ι → List κ} {i : ι}

omit [DecidableEq ι] in
theorem Kept.start {programs : ι → List (Op κ)} (h : ∀ i, o.Follows [] (programs i)) :
    o.Kept (Locks.start programs) (fun _ => []) := by
  constructor
  · exact h
  · intro i
    trivial
  · intro i lock
    simp [Locks.start]
  · intro i lock hl
    cases hl
  · intro lock _
    rfl

omit [DecidableEq ι] in
theorem Kept.owner_unique (hk : o.Kept s held) {i j : ι} (hi : lock ∈ held i) (hj : lock ∈ held j) : i = j := by
  have hi' := (hk.owner_iff i lock).mpr hi
  have hj' := (hk.owner_iff j lock).mpr hj
  exact Option.some.inj (hi'.symm.trans hj')

omit [DecidableEq ι] in
theorem Kept.not_mem_of_free (hk : o.Kept s held) (hfree : s.owner lock = none ∨ s.owner lock = some i)
    {j : ι} (hj : j ≠ i) : lock ∉ held j := by
  intro hm
  have howner := (hk.owner_iff j lock).mpr hm
  rcases hfree with h | h
  · rw [h] at howner
    cases howner
  · exact hj (Option.some.inj (howner.symm.trans h))

omit [DecidableEq ι] in
theorem Kept.count_of_free (hk : o.Kept s held) (hfree : s.owner lock = none ∨ s.owner lock = some i) :
    s.count lock = (held i).count lock := by
  by_cases hm : lock ∈ held i
  · exact hk.count_eq i lock hm
  · have hnone := hfree.resolve_right fun h => hm ((hk.owner_iff i lock).mp h)
    rw [hk.count_free lock hnone, List.count_eq_zero_of_not_mem hm]

theorem Kept.follows_update (hk : o.Kept s held) {locks : List κ} (h : o.Follows locks (s.todo i).tail) (j : ι) :
    o.Follows (Function.update held i locks j) (Function.update s.todo i (s.todo i).tail j) := by
  by_cases hj : j = i
  · subst hj
    simpa using h
  · simpa [hj] using hk.follows j

theorem Kept.gated_update (hk : o.Kept s held) {locks : List κ} (h : o.Gated locks) (j : ι) :
    o.Gated (Function.update held i locks j) := by
  by_cases hj : j = i
  · subst hj
    simpa using h
  · simpa [hj] using hk.gated j

theorem Kept.acquire (hk : o.Kept s held) {rest : List (Op κ)} (htodo : s.todo i = .acquire lock :: rest)
    (hfree : s.owner lock = none ∨ s.owner lock = some i) :
    o.Kept (s.acquire i lock) (Function.update held i (lock :: held i)) := by
  have hfollows := hk.follows i
  rw [htodo] at hfollows
  obtain ⟨hallows, hrest⟩ := hfollows
  constructor
  · apply hk.follows_update
    rw [htodo]
    exact hrest
  · exact hk.gated_update ((hk.gated i).push hallows)
  · intro j l
    by_cases hl : l = lock
    · subst hl
      by_cases hj : j = i
      · simp [State.acquire, hj]
      · simp [State.acquire, hj, hk.not_mem_of_free hfree hj, Ne.symm hj]
    · by_cases hj : j = i
      · subst hj
        simpa [State.acquire, hl] using hk.owner_iff j l
      · simpa [State.acquire, hl, hj] using hk.owner_iff j l
  · intro j l hm
    by_cases hl : l = lock
    · subst hl
      have hj : j = i := by
        by_contra hj
        rw [Function.update_of_ne hj] at hm
        exact hk.not_mem_of_free hfree hj hm
      subst hj
      simp [State.acquire, hk.count_of_free hfree]
    · by_cases hj : j = i
      · subst hj
        have hm' : l ∈ held j := by simpa [hl] using hm
        simpa [State.acquire, hl, Ne.symm hl] using hk.count_eq j l hm'
      · have hm' : l ∈ held j := by simpa [hj] using hm
        simpa [State.acquire, hl, hj] using hk.count_eq j l hm'
  · intro l hnone
    by_cases hl : l = lock
    · subst hl
      simp [State.acquire] at hnone
    · have hfree' : s.owner l = none := by simpa [State.acquire, hl] using hnone
      simpa [State.acquire, hl] using hk.count_free l hfree'

section release

variable {below : List κ}

theorem mem_update_below (hheld : held i = lock :: below) (j : ι) (l : κ) :
    l ∈ Function.update held i below j ↔ l ∈ held j ∧ ¬ (j = i ∧ l = lock ∧ lock ∉ below) := by
  by_cases hj : j = i
  · subst hj
    rw [Function.update_self, hheld, List.mem_cons]
    by_cases hl : l = lock
    · subst hl
      simp
    · simp [hl]
  · simp [hj]

omit [DecidableEq ι] in
theorem Kept.count_top (hk : o.Kept s held) (hheld : held i = lock :: below) :
    s.count lock = below.count lock + 1 := by
  have hcount := hk.count_eq i lock (by simp [hheld])
  rwa [hheld, List.count_cons_self] at hcount

theorem Kept.owner_release (hk : o.Kept s held) (hheld : held i = lock :: below) (l : κ) :
    (s.release i lock).owner l = if l = lock ∧ lock ∉ below then none else s.owner l := by
  have hone : s.count lock = 1 ↔ lock ∉ below := by
    rw [hk.count_top hheld, ← List.count_eq_zero]
    omega
  by_cases hb : lock ∈ below
  · simp [State.release, hone, hb]
  · by_cases hl : l = lock <;> simp [State.release, hone, hb, hl]

end release

theorem Kept.release (hk : o.Kept s held) {rest : List (Op κ)} (htodo : s.todo i = .release lock :: rest) :
    o.Kept (s.release i lock) (Function.update held i (held i).tail) := by
  have hfollows := hk.follows i
  rw [htodo] at hfollows
  obtain ⟨below, hheld, hrest⟩ := hfollows
  have hgated := hk.gated i
  rw [hheld] at hgated
  have howner := (hk.owner_iff i lock).mpr (by simp [hheld])
  have hcount := hk.count_top hheld
  rw [hheld, List.tail_cons]
  constructor
  · apply hk.follows_update
    rw [htodo]
    exact hrest
  · exact hk.gated_update hgated.2
  · intro j l
    rw [hk.owner_release hheld, mem_update_below hheld, ← hk.owner_iff j l]
    by_cases hgone : l = lock ∧ lock ∉ below
    · rw [if_pos hgone]
      obtain ⟨rfl, hb⟩ := hgone
      simp only [reduceCtorEq, hb, not_false_eq_true, and_true, false_iff, not_and, not_not]
      intro hj
      exact Option.some.inj (hj.symm.trans howner)
    · rw [if_neg hgone]
      tauto
  · intro j l hm
    rw [mem_update_below hheld] at hm
    have hold := hk.count_eq j l hm.1
    by_cases hl : l = lock
    · subst hl
      have hj : j = i := hk.owner_unique hm.1 (by simp [hheld])
      subst hj
      simp [State.release, hcount]
    · by_cases hj : j = i
      · subst hj
        rw [hheld, List.count_cons_of_ne (Ne.symm hl)] at hold
        simpa [State.release, hl] using hold
      · simpa [State.release, hl, hj] using hold
  · intro l hnone
    rw [hk.owner_release hheld] at hnone
    split_ifs at hnone with hgone
    · obtain ⟨rfl, hb⟩ := hgone
      simp [State.release, hcount, List.count_eq_zero_of_not_mem hb]
    · have hfree := hk.count_free l hnone
      by_cases hl : l = lock
      · subst hl
        rw [howner] at hnone
        cases hnone
      · simpa [State.release, hl] using hfree

theorem Kept.step (hk : o.Kept s held) (h : Step s s') : ∃ held', o.Kept s' held' := by
  cases h with
  | acquire i lock rest htodo hfree => exact ⟨_, hk.acquire htodo hfree⟩
  | release i lock rest htodo howner => exact ⟨_, hk.release htodo⟩

theorem Kept.blocked (hk : o.Kept s held) (hstuck : ∀ s', ¬ Step s s') (hi : s.todo i ≠ []) :
    ∃ lock j, s.owner lock = some j ∧ o.gate lock = none ∧
      ∀ l ∈ held i, o.gate l = none → o.rank lock < o.rank l := by
  have hfollows := hk.follows i
  cases htodo : s.todo i with
  | nil => exact absurd htodo hi
  | cons op rest =>
    rw [htodo] at hfollows
    cases op with
    | release lock =>
      obtain ⟨below, hheld, -⟩ := hfollows
      have howner := (hk.owner_iff i lock).mpr (by simp [hheld])
      exact absurd (Step.release i lock rest htodo howner) (hstuck _)
    | acquire lock =>
      obtain ⟨hallows, -⟩ := hfollows
      have htaken : ¬ (s.owner lock = none ∨ s.owner lock = some i) := by
        intro hfree
        exact hstuck _ (.acquire i lock rest htodo hfree)
      rw [not_or] at htaken
      obtain ⟨j, hj⟩ := Option.ne_none_iff_exists'.mp htaken.1
      refine ⟨lock, j, hj, ?_⟩
      rcases hallows with hm | hallows
      · exact absurd ((hk.owner_iff i lock).mpr hm) htaken.2
      · cases hgate : o.gate lock with
        | none =>
          rw [hgate] at hallows
          exact ⟨rfl, hallows⟩
        | some g =>
          -- both would hold the gate
          rw [hgate] at hallows
          have hg := (hk.gated j).mem ((hk.owner_iff j lock).mp hj) hgate
          obtain rfl := hk.owner_unique hallows hg
          exact absurd hj htaken.2

theorem Kept.progress (hk : o.Kept s held) (hi : s.todo i ≠ []) : ∃ s', Step s s' := by
  by_contra hstuck
  rw [not_exists] at hstuck
  -- the holder of a lock waits for a smaller one
  have hdescent : ∀ n lock j, s.owner lock = some j → o.gate lock = none → o.rank lock < n → False := by
    intro n
    induction n with
    | zero =>
      intro lock j _ _ hlt
      omega
    | succ n ih =>
      intro lock j howner hgate hlt
      have hm := (hk.owner_iff j lock).mp howner
      have hj : s.todo j ≠ [] := by
        intro hnil
        have hfollows := hk.follows j
        rw [hnil] at hfollows
        have hempty : held j = [] := hfollows
        rw [hempty] at hm
        cases hm
      obtain ⟨lock', j', howner', hgate', hless⟩ := hk.blocked hstuck hj
      have hrank := hless lock hm hgate
      apply ih lock' j' howner' hgate'
      omega
  obtain ⟨lock, j, howner, hgate, -⟩ := hk.blocked hstuck hi
  exact hdescent _ lock j howner hgate (Nat.lt_succ_self _)

theorem deadlock_free {programs : ι → List (Op κ)} (hprograms : ∀ i, o.Follows [] (programs i))
    (h : Relation.ReflTransGen Step (Locks.start programs) s) (hi : s.todo i ≠ []) : ∃ s', Step s s' := by
  have hkept : ∃ held, o.Kept s held := by
    clear hi
    induction h with
    | refl => exact ⟨_, Kept.start hprograms⟩
    | tail _ hstep ih =>
      obtain ⟨held, hk⟩ := ih
      exact hk.step hstep
  obtain ⟨held, hk⟩ := hkept
  exact hk.progress hi

end Order

end TrinityOS.Locks
