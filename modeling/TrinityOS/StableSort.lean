import Mathlib.Data.List.Basic
import Mathlib.Order.Lattice

namespace TrinityOS

variable {α κ : Type} [LinearOrder κ]

structure StablySorted (key : α → κ) (items queue : List α) : Prop where
  descending : queue.Pairwise (fun a b => key b ≤ key a)
  ties : ∀ k, queue.filter (fun a => key a = k) = items.filter (fun a => key a = k)

def sortDescending (key : α → κ) (items : List α) : List α :=
  items.mergeSort (fun a b => key b ≤ key a)

namespace StablySorted

variable {key : α → κ} {items queue queue' : List α} {a : α}

theorem nil : StablySorted key [] [] := ⟨List.Pairwise.nil, fun _ => rfl⟩

theorem le_head {b : α} (h : (b :: queue).Pairwise (fun a b => key b ≤ key a)) (ha : a ∈ b :: queue) :
    key a ≤ key b := by
  rcases List.mem_cons.mp ha with rfl | hlater
  · exact le_rfl
  · exact (List.pairwise_cons.mp h).1 a hlater

theorem mem_of_ties (hties : ∀ k, queue.filter (fun a => key a = k) = queue'.filter (fun a => key a = k))
    (ha : a ∈ queue) : a ∈ queue' := by
  have hmem : a ∈ queue.filter (fun b => key b = key a) := List.mem_filter.mpr ⟨ha, by simp⟩
  rw [hties (key a)] at hmem
  exact List.mem_of_mem_filter hmem

theorem ties_tail (hties : ∀ k, (a :: queue).filter (fun a => key a = k) = (a :: queue').filter (fun a => key a = k))
    (k : κ) : queue.filter (fun a => key a = k) = queue'.filter (fun a => key a = k) := by
  have hk := hties k
  by_cases hak : key a = k
  · rw [List.filter_cons_of_pos (by simp [hak]), List.filter_cons_of_pos (by simp [hak])] at hk
    exact (List.cons.inj hk).2
  · rwa [List.filter_cons_of_neg (by simp [hak]), List.filter_cons_of_neg (by simp [hak])] at hk

theorem ext (h : queue.Pairwise (fun a b => key b ≤ key a)) (h' : queue'.Pairwise (fun a b => key b ≤ key a))
    (hties : ∀ k, queue.filter (fun a => key a = k) = queue'.filter (fun a => key a = k)) : queue = queue' := by
  induction queue generalizing queue' with
  | nil =>
    apply Eq.symm
    apply List.eq_nil_iff_forall_not_mem.mpr
    intro b hb
    cases mem_of_ties (fun k => (hties k).symm) hb
  | cons a queue ih =>
    have hmem : a ∈ queue' := mem_of_ties hties List.mem_cons_self
    cases queue' with
    | nil => cases hmem
    | cons b queue' =>
      have hmem' : b ∈ a :: queue := mem_of_ties (fun k => (hties k).symm) List.mem_cons_self
      -- both heads have the largest key, so they lead the ties of one key
      have hkey : key a = key b := le_antisymm (le_head h' hmem) (le_head h hmem')
      have hheads := hties (key a)
      rw [List.filter_cons_of_pos (by simp), List.filter_cons_of_pos (by simp [hkey])] at hheads
      obtain ⟨rfl, -⟩ := List.cons.inj hheads
      congr 1
      apply ih (List.pairwise_cons.mp h).2 (List.pairwise_cons.mp h').2
      exact ties_tail hties

theorem sortDescending (key : α → κ) (items : List α) :
    StablySorted key items (sortDescending key items) := by
  have htrans : ∀ a b c : α, decide (key b ≤ key a) = true → decide (key c ≤ key b) = true →
      decide (key c ≤ key a) = true := by
    intro a b c hab hbc
    rw [decide_eq_true_eq] at hab hbc ⊢
    exact le_trans hbc hab
  have htotal : ∀ a b : α, (decide (key b ≤ key a) || decide (key a ≤ key b)) = true := by
    intro a b
    rw [Bool.or_eq_true, decide_eq_true_eq, decide_eq_true_eq]
    exact le_total (key b) (key a)
  constructor
  · apply (List.pairwise_mergeSort htrans htotal items).imp
    intro a b hab
    exact of_decide_eq_true hab
  · intro k
    have hperm := (List.mergeSort_perm items (fun a b => key b ≤ key a)).filter (fun a => key a = k)
    symm
    apply List.Sublist.eq_of_length
    · have hsub : (items.filter (fun a => key a = k)).Sublist (TrinityOS.sortDescending key items) := by
        apply List.sublist_mergeSort htrans htotal
        · apply List.pairwise_of_forall_mem_list
          intro a ha b hb
          have hak : key a = k := by simpa using (List.mem_filter.mp ha).2
          have hbk : key b = k := by simpa using (List.mem_filter.mp hb).2
          rw [decide_eq_true_eq, hak, hbk]
        · exact List.filter_sublist
      have hfilter := hsub.filter (fun a => key a = k)
      rwa [List.filter_filter, List.filter_congr (fun a _ => Bool.and_self _)] at hfilter
    · exact hperm.length_eq.symm

theorem eq_sortDescending (h : StablySorted key items queue) : queue = TrinityOS.sortDescending key items := by
  have hsorted := StablySorted.sortDescending key items
  apply ext h.descending hsorted.descending
  intro k
  rw [h.ties k, hsorted.ties k]

theorem perm (h : StablySorted key items queue) : queue.Perm items := by
  rw [h.eq_sortDescending]
  exact List.mergeSort_perm items _

theorem insertIdx_findIdx (p : α → Bool) (a : α) (queue : List α) :
    ∃ front back, queue = front ++ back ∧ queue.insertIdx (queue.findIdx p) a = front ++ a :: back ∧
      (∀ b ∈ front, p b = false) ∧ ∀ b rest, back = b :: rest → p b = true := by
  induction queue with
  | nil => exact ⟨[], [], rfl, rfl, by simp, by simp⟩
  | cons b queue ih =>
    by_cases hb : p b = true
    · refine ⟨[], b :: queue, rfl, ?_, by simp, ?_⟩
      · rw [List.findIdx_cons, hb]
        rfl
      · intro c rest hback
        obtain ⟨rfl, -⟩ := List.cons.inj hback
        exact hb
    · rw [Bool.not_eq_true] at hb
      obtain ⟨front, back, hqueue, hinsert, hfront, hback⟩ := ih
      refine ⟨b :: front, back, congrArg (b :: ·) hqueue, ?_, ?_, hback⟩
      · rw [List.findIdx_cons, hb, cond_false, List.insertIdx_succ_cons, hinsert]
        rfl
      · intro c hc
        rcases List.mem_cons.mp hc with rfl | hc
        · exact hb
        · exact hfront c hc

theorem insert (h : StablySorted key items queue) (a : α) :
    StablySorted key (items ++ [a]) (queue.insertIdx (queue.findIdx (fun b => key a > key b)) a) := by
  obtain ⟨front, back, rfl, hinsert, hfront, hback⟩ := insertIdx_findIdx (fun b => key a > key b) a queue
  rw [hinsert]
  obtain ⟨hdescF, hdescB, hcross⟩ := List.pairwise_append.mp h.descending
  have habove : ∀ b ∈ front, key a ≤ key b := by
    intro b hb
    exact not_lt.mp (of_decide_eq_false (hfront b hb))
  have hbelow : ∀ b ∈ back, key b < key a := by
    cases back with
    | nil => simp
    | cons c back =>
      have hc : key c < key a := of_decide_eq_true (hback c back rfl)
      intro b hb
      exact lt_of_le_of_lt (le_head hdescB hb) hc
  constructor
  · apply List.pairwise_append.mpr
    refine ⟨hdescF, List.pairwise_cons.mpr ⟨fun b hb => (hbelow b hb).le, hdescB⟩, ?_⟩
    intro b hb c hc
    rcases List.mem_cons.mp hc with rfl | hc
    · exact habove b hb
    · exact hcross b hb c hc
  · intro k
    have hk := h.ties k
    rw [List.filter_append] at hk
    rw [List.filter_append, List.filter_append, ← hk]
    by_cases hak : key a = k
    · have hnone : back.filter (fun b => key b = k) = [] := by
        apply List.filter_eq_nil_iff.mpr
        intro b hb
        rw [decide_eq_true_eq, ← hak]
        exact (hbelow b hb).ne
      rw [List.filter_cons_of_pos (by simp [hak]), hnone, List.append_nil]
      simp [hak]
    · rw [List.filter_cons_of_neg (by simp [hak])]
      simp [hak]

theorem filter (h : StablySorted key items queue) (p : α → Bool) :
    StablySorted key (items.filter p) (queue.filter p) := by
  refine ⟨h.descending.sublist List.filter_sublist, fun k => ?_⟩
  rw [List.filter_filter, List.filter_filter]
  have hcomm : (fun a => decide (key a = k) && p a) = fun a => p a && decide (key a = k) := by
    funext a
    exact Bool.and_comm _ _
  rw [hcomm, ← List.filter_filter, ← List.filter_filter, h.ties k]

theorem head_first {R : α → α → Prop} (h : StablySorted key items (a :: queue)) (hR : items.Pairwise R) {b : α}
    (hb : b ∈ queue) : key b < key a ∨ (key b = key a ∧ R a b) := by
  have hle := le_head h.descending (List.mem_cons_of_mem a hb)
  rcases hle.lt_or_eq with hlt | heq
  · exact .inl hlt
  · right
    refine ⟨heq, ?_⟩
    have hties := h.ties (key a)
    rw [List.filter_cons_of_pos (by simp)] at hties
    have hpairs : (items.filter (fun c => key c = key a)).Pairwise R := hR.sublist List.filter_sublist
    rw [← hties] at hpairs
    have hmem : b ∈ queue.filter (fun c => key c = key a) := List.mem_filter.mpr ⟨hb, by simpa using heq⟩
    exact (List.pairwise_cons.mp hpairs).1 b hmem

end StablySorted

end TrinityOS
