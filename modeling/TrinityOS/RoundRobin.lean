import Mathlib.Data.List.Nodup
import Mathlib.Data.List.Basic
import Mathlib.Data.List.Rotate
import Mathlib.Logic.Function.Iterate

namespace TrinityOS

@[ext]
structure RoundRobin (ι : Type) where
  queue : List ι
  turns : ι → ℕ

namespace RoundRobin

variable {ι : Type} [DecidableEq ι]

/-- What may happen to the queue between two passes: new ones enter at the end, and whoever
need not stay may leave from anywhere. -/
inductive Change (stays : ι → Prop) (queue : List ι) : List ι → Prop
  | same : Change stays queue queue
  | enter (x : ι) (hx : x ∉ queue) : Change stays queue (queue ++ [x])
  | leave (x : ι) (hx : ¬ stays x) : Change stays queue (queue.erase x)

def pass (s : RoundRobin ι) : RoundRobin ι :=
  match s.queue with
  | [] => s
  | x :: rest => ⟨rest ++ [x], Function.update s.turns x (s.turns x + 1)⟩

inductive Steps (stays : ι → Prop) (s : RoundRobin ι) : ℕ → RoundRobin ι → Prop
  | refl : Steps stays s 0 s
  | change {n s' queue} (h : Steps stays s n s') (hc : Change stays s'.queue queue) :
      Steps stays s n { s' with queue }
  | pass {n s'} (h : Steps stays s n s') : Steps stays s (n + 1) s'.pass

variable {stays : ι → Prop} {s s' : RoundRobin ι} {queue queue' rest : List ι} {n i : ℕ} {p q x : ι}

theorem pass_nil (h : s.queue = []) : s.pass = s := by
  rw [pass, h]

theorem pass_cons (h : s.queue = x :: rest) :
    s.pass = ⟨rest ++ [x], Function.update s.turns x (s.turns x + 1)⟩ := by
  rw [pass, h]

theorem Change.nodup (hc : Change stays queue queue') (h : queue.Nodup) : queue'.Nodup := by
  cases hc with
  | same => exact h
  | enter x hx => exact List.Nodup.append h (List.nodup_singleton x) (by simpa using hx)
  | leave x hx => exact h.erase x

theorem pass_nodup (h : s.queue.Nodup) : s.pass.queue.Nodup := by
  cases hq : s.queue with
  | nil => rwa [pass_nil hq]
  | cons x rest =>
    rw [hq, List.nodup_cons] at h
    rw [pass_cons hq]
    exact List.Nodup.append h.2 (List.nodup_singleton x) (by simpa using h.1)

theorem Steps.nodup (h : Steps stays s n s') (hn : s.queue.Nodup) : s'.queue.Nodup := by
  induction h with
  | refl => exact hn
  | change _ hc ih => exact hc.nodup ih
  | pass _ ih => exact pass_nodup ih

section waiting

theorem idxOf_erase_le (hx : x ≠ p) (l : List ι) : (l.erase x).idxOf p ≤ l.idxOf p := by
  induction l with
  | nil => exact Nat.le_refl _
  | cons y l ih =>
    by_cases hyx : y = x
    · subst hyx
      rw [List.erase_cons_head, List.idxOf_cons_ne l hx]
      omega
    · rw [List.erase_cons_tail (by simpa using hyx)]
      by_cases hyp : y = p
      · rw [List.idxOf_cons_eq _ hyp]
        exact Nat.zero_le _
      · rw [List.idxOf_cons_ne _ hyp, List.idxOf_cons_ne _ hyp]
        omega

theorem Change.waiting (hc : Change stays queue queue') (hp : stays p) (hm : p ∈ queue) :
    p ∈ queue' ∧ queue'.idxOf p ≤ queue.idxOf p := by
  cases hc with
  | same => exact ⟨hm, Nat.le_refl _⟩
  | enter x hx =>
    rw [List.idxOf_append_of_mem hm]
    exact ⟨List.mem_append_left _ hm, Nat.le_refl _⟩
  | leave x hx =>
    have hxp : x ≠ p := fun he => hx (he ▸ hp)
    exact ⟨(List.mem_erase_of_ne hxp.symm).mpr hm, idxOf_erase_le hxp queue⟩

theorem pass_waiting (hm : p ∈ s.queue) : p ∈ s.pass.queue ∧
    (s.pass.turns p = s.turns p + 1 ∨
      s.pass.turns p = s.turns p ∧ s.pass.queue.idxOf p + 1 = s.queue.idxOf p) := by
  cases hq : s.queue with
  | nil =>
    rw [hq] at hm
    cases hm
  | cons x rest =>
    rw [hq] at hm
    rw [pass_cons hq]
    by_cases hxp : x = p
    · subst hxp
      refine ⟨?_, .inl ?_⟩
      · simp
      · exact Function.update_self _ _ _
    · have hrest : p ∈ rest := (List.mem_cons.mp hm).resolve_left (Ne.symm hxp)
      refine ⟨List.mem_append_left _ hrest, .inr ⟨Function.update_of_ne (Ne.symm hxp) _ _, ?_⟩⟩
      rw [List.idxOf_append_of_mem hrest, List.idxOf_cons_ne _ hxp]

theorem Steps.waiting (h : Steps stays s n s') (hp : stays p) (hm : p ∈ s.queue) :
    p ∈ s'.queue ∧ s.turns p ≤ s'.turns p ∧
      (s.turns p < s'.turns p ∨ s'.queue.idxOf p + n ≤ s.queue.idxOf p) := by
  induction h with
  | refl => exact ⟨hm, Nat.le_refl _, .inr (Nat.le_refl _)⟩
  | change _ hc ih =>
    obtain ⟨hm', hle, hserved⟩ := ih
    obtain ⟨hmem, hidx⟩ := hc.waiting hp hm'
    refine ⟨hmem, hle, ?_⟩
    dsimp only
    omega
  | pass _ ih =>
    obtain ⟨hm', hle, hserved⟩ := ih
    obtain ⟨hmem, hturn⟩ := pass_waiting hm'
    refine ⟨hmem, ?_, ?_⟩ <;> omega

theorem idxOf_le_of_getElem? {l : List ι} (h : l[i]? = some p) : l.idxOf p ≤ i := by
  induction l generalizing i with
  | nil => simp at h
  | cons y l ih =>
    by_cases hyp : y = p
    · rw [List.idxOf_cons_eq _ hyp]
      omega
    · cases i with
      | zero => exact absurd (by simpa using h) hyp
      | succ i =>
        rw [List.getElem?_cons_succ] at h
        rw [List.idxOf_cons_ne _ hyp]
        have := ih h
        omega

theorem Steps.served (h : Steps stays s n s') (hp : stays p) (hi : s.queue[i]? = some p) (hn : i + 1 ≤ n) :
    s.turns p < s'.turns p := by
  obtain ⟨-, -, hserved⟩ := h.waiting hp (List.mem_of_getElem? hi)
  have := idxOf_le_of_getElem? hi
  omega

end waiting

section order

theorem sublist_or_of_mem {l : List ι} (hpq : p ≠ q) (hp : p ∈ l) (hq : q ∈ l) :
    [p, q].Sublist l ∨ [q, p].Sublist l := by
  induction l with
  | nil => cases hp
  | cons x l ih =>
    by_cases hxp : x = p
    · subst hxp
      have hq' : q ∈ l := (List.mem_cons.mp hq).resolve_left (Ne.symm hpq)
      exact .inl ((List.singleton_sublist.mpr hq').cons_cons x)
    · by_cases hxq : x = q
      · subst hxq
        have hp' : p ∈ l := (List.mem_cons.mp hp).resolve_left hpq
        exact .inr ((List.singleton_sublist.mpr hp').cons_cons x)
      · have hp' : p ∈ l := (List.mem_cons.mp hp).resolve_left (Ne.symm hxp)
        have hq' : q ∈ l := (List.mem_cons.mp hq).resolve_left (Ne.symm hxq)
        exact (ih hp' hq').imp (·.cons x) (·.cons x)

theorem Change.sublist (hc : Change stays queue queue') (hp : stays p) (hq : stays q)
    (h : [p, q].Sublist queue) : [p, q].Sublist queue' := by
  cases hc with
  | same => exact h
  | enter x hx => exact h.trans (List.sublist_append_left queue [x])
  | leave x hx =>
    have hxpq : x ∉ [p, q] := by
      simp only [List.mem_cons, List.not_mem_nil, or_false]
      rintro (rfl | rfl)
      · exact hx hp
      · exact hx hq
    rw [← List.erase_of_not_mem hxpq]
    exact h.erase x

theorem pass_order (hn : s.queue.Nodup) (hpq : p ≠ q) (h : [p, q].Sublist s.queue) :
    s.pass.turns q = s.turns q ∧
      ([p, q].Sublist s.pass.queue ∧ s.pass.turns p = s.turns p ∨
        [q, p].Sublist s.pass.queue ∧ s.pass.turns p = s.turns p + 1) := by
  cases hs : s.queue with
  | nil =>
    rw [hs] at h
    cases h
  | cons x rest =>
    rw [hs] at hn h
    rw [pass_cons hs]
    dsimp only
    rw [List.nodup_cons] at hn
    cases h with
    | cons _ h =>
      have hxp : p ≠ x := fun he => hn.1 (he ▸ h.subset (by simp))
      have hxq : q ≠ x := fun he => hn.1 (he ▸ h.subset (by simp))
      rw [Function.update_of_ne hxp, Function.update_of_ne hxq]
      exact ⟨rfl, .inl ⟨h.trans (List.sublist_append_left rest [x]), rfl⟩⟩
    | cons_cons _ h =>
      rw [Function.update_self, Function.update_of_ne hpq.symm]
      exact ⟨rfl, .inr ⟨h.append (List.Sublist.refl [p]), rfl⟩⟩

theorem Steps.order (h : Steps stays s n s') (hp : stays p) (hq : stays q) (hn : s.queue.Nodup) (hpq : p ≠ q)
    (hfirst : [p, q].Sublist s.queue) :
    [p, q].Sublist s'.queue ∧ s'.turns p + s.turns q = s'.turns q + s.turns p ∨
      [q, p].Sublist s'.queue ∧ s'.turns p + s.turns q = s'.turns q + s.turns p + 1 := by
  induction h with
  | refl => exact .inl ⟨hfirst, Nat.add_comm _ _⟩
  | change _ hc ih =>
    rcases ih with ⟨hsub, heq⟩ | ⟨hsub, heq⟩
    · exact .inl ⟨hc.sublist hp hq hsub, heq⟩
    · exact .inr ⟨hc.sublist hq hp hsub, heq⟩
  | pass h ih =>
    have hn' := h.nodup hn
    rcases ih with ⟨hsub, heq⟩ | ⟨hsub, heq⟩
    · obtain ⟨hturn, ⟨hsub', hturn'⟩ | ⟨hsub', hturn'⟩⟩ := pass_order hn' hpq hsub
      · exact .inl ⟨hsub', by omega⟩
      · exact .inr ⟨hsub', by omega⟩
    · obtain ⟨hturn, ⟨hsub', hturn'⟩ | ⟨hsub', hturn'⟩⟩ := pass_order hn' hpq.symm hsub
      · exact .inr ⟨hsub', by omega⟩
      · exact .inl ⟨hsub', by omega⟩

theorem Steps.fair (h : Steps stays s n s') (hp : stays p) (hq : stays q) (hn : s.queue.Nodup)
    (hmp : p ∈ s.queue) (hmq : q ∈ s.queue) :
    s'.turns p + s.turns q ≤ s'.turns q + s.turns p + 1 ∧
      s'.turns q + s.turns p ≤ s'.turns p + s.turns q + 1 := by
  by_cases hpq : p = q
  · subst hpq
    omega
  · rcases sublist_or_of_mem hpq hmp hmq with hfirst | hfirst
    · have := h.order hp hq hn hpq hfirst
      omega
    · have := h.order hq hp hn (Ne.symm hpq) hfirst
      omega

end order

section kinds

def OneKind (K : ι → Prop) (l : List ι) : Prop := ∀ p ∈ l, ∀ q ∈ l, K p → K q

variable {K : ι → Prop} {l l' : List ι}

omit [DecidableEq ι] in
theorem OneKind.subset (h : OneKind K l) (hl : l' ⊆ l) : OneKind K l' :=
  fun p hp q hq => h p (hl hp) q (hl hq)

omit [DecidableEq ι] in
theorem oneKind_congr {K' : ι → Prop} (h : ∀ q ∈ l, (K q ↔ K' q)) : OneKind K l ↔ OneKind K' l := by
  constructor
  · intro hone p hp q hq hK
    exact (h q hq).mp (hone p hp q hq ((h p hp).mpr hK))
  · intro hone p hp q hq hK
    exact (h q hq).mpr (hone p hp q hq ((h p hp).mp hK))

omit [DecidableEq ι] in
theorem oneKind_concat : OneKind K (l ++ [x]) ↔ OneKind K l ∧ ∀ q ∈ l, (K q ↔ K x) := by
  constructor
  · intro h
    refine ⟨h.subset (List.subset_append_left l [x]), fun q hq => ?_⟩
    have hql : q ∈ l ++ [x] := List.mem_append_left [x] hq
    have hxl : x ∈ l ++ [x] := List.mem_append_right l (List.mem_singleton_self x)
    exact ⟨h q hql x hxl, h x hxl q hql⟩
  · rintro ⟨h, hx⟩ p hp q hq hK
    have hKx : K x := by
      rcases List.mem_append.mp hp with hp | hp
      · exact (hx p hp).mp hK
      · rwa [← List.mem_singleton.mp hp]
    rcases List.mem_append.mp hq with hq | hq
    · exact (hx q hq).mpr hKx
    · rwa [List.mem_singleton.mp hq]

theorem pass_queue (s : RoundRobin ι) : s.pass.queue = s.queue.rotate 1 := by
  cases hq : s.queue with
  | nil => rw [pass_nil hq, hq, List.rotate_nil]
  | cons x rest => rw [pass_cons hq, List.rotate_cons_succ, List.rotate_zero]

theorem iterate_pass_queue (s : RoundRobin ι) (n : ℕ) : (pass^[n] s).queue = s.queue.rotate n := by
  induction n with
  | zero => rw [Function.iterate_zero_apply, List.rotate_zero]
  | succ n ih => rw [Function.iterate_succ_apply', pass_queue, ih, List.rotate_rotate]

theorem pass_turns (s : RoundRobin ι) (p : ι) :
    s.pass.turns p = s.turns p + if s.queue.head? = some p then 1 else 0 := by
  cases hq : s.queue with
  | nil => simp [pass_nil hq]
  | cons x rest =>
    rw [pass_cons hq]
    by_cases hx : p = x
    · simp [hx]
    · simp [hx, Ne.symm hx]

theorem succ_turns {m : ℕ} (hi : i < m) (n : ℕ) :
    (n + 1 + (m - 1 - i)) / m = (n + (m - 1 - i)) / m + if n % m = i then 1 else 0 := by
  have hdvd : m ∣ n + (m - 1 - i) + 1 ↔ n % m = i := by
    have he : n + (m - 1 - i) + 1 = n + m - i := by omega
    have hn := Nat.div_add_mod n m
    have hlt := Nat.mod_lt n (Nat.zero_lt_of_lt hi)
    rw [he]
    constructor
    · intro h
      have hmod : m ∣ n % m + m - i := by
        have hsub : n + m - i = m * (n / m) + (n % m + m - i) := by omega
        rw [hsub] at h
        exact (Nat.dvd_add_right (Nat.dvd_mul_right m _)).mp h
      obtain ⟨k, hk⟩ := hmod
      rcases k with _ | _ | k
      · omega
      · omega
      · have := Nat.mul_le_mul_left m (show 2 ≤ k + 1 + 1 by omega)
        omega
    · intro h
      have hsub : n + m - i = m * (n / m + 1) := by
        rw [Nat.mul_add]
        omega
      rw [hsub]
      exact Nat.dvd_mul_right m _
  have he : n + 1 + (m - 1 - i) = n + (m - 1 - i) + 1 := by omega
  rw [he, Nat.succ_div]
  simp only [hdvd]

theorem iterate_pass_turns (hn : s.queue.Nodup) (hi : s.queue[i]? = some p) (n : ℕ) :
    (pass^[n] s).turns p = s.turns p + (n + (s.queue.length - 1 - i)) / s.queue.length := by
  obtain ⟨hlt, hp⟩ := List.getElem?_eq_some_iff.mp hi
  induction n with
  | zero =>
    rw [Function.iterate_zero_apply, Nat.div_eq_of_lt (by omega), Nat.add_zero]
  | succ n ih =>
    have hmod := Nat.mod_lt n (Nat.zero_lt_of_lt hlt)
    have hhead : (pass^[n] s).queue.head? = some p ↔ n % s.queue.length = i := by
      rw [iterate_pass_queue, ← List.rotate_mod, List.head?_rotate hmod, List.getElem?_eq_getElem hmod, Option.some.injEq,
        ← hp]
      exact hn.getElem_inj_iff
    rw [Function.iterate_succ_apply', pass_turns, ih, succ_turns hlt, Nat.add_assoc]
    simp only [hhead]

theorem iterate_pass_turns_of_not_mem (hp : p ∉ s.queue) (n : ℕ) : (pass^[n] s).turns p = s.turns p := by
  induction n with
  | zero => rfl
  | succ n ih =>
    have hhead : (pass^[n] s).queue.head? ≠ some p := by
      intro h
      have hm := List.mem_of_head? h
      rw [iterate_pass_queue, List.mem_rotate] at hm
      exact hp hm
    rw [Function.iterate_succ_apply', pass_turns, if_neg hhead, ih, Nat.add_zero]

theorem oneKind_iff (s : RoundRobin ι) : OneKind K s.queue ↔
    ∀ n x, (pass^[n] s).queue.head? = some x → K x → ∀ q ∈ (pass^[n] s).queue, K q := by
  simp only [iterate_pass_queue, List.mem_rotate]
  constructor
  · intro h n x hx hK q hq
    exact h x (List.mem_rotate.mp (List.mem_of_head? hx)) q hq hK
  · intro h p hp q hq hK
    obtain ⟨i, hi, hpi⟩ := List.getElem_of_mem hp
    apply h i p _ hK q hq
    rw [List.head?_rotate hi, List.getElem?_eq_getElem hi, hpi]

end kinds

end RoundRobin

end TrinityOS
