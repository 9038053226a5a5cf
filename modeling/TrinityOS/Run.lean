import Mathlib.Algebra.Order.Monoid.Defs
import Mathlib.Data.List.Infix

namespace TrinityOS.Run

variable {S E : Type} (next : S → E → S)

def final (s : S) (es : List E) : S := es.foldl next s

def Always (P : S → Prop) (s : S) (es : List E) : Prop := ∀ pre, pre <+: es → P (final next s pre)

def Guarded (ok : S → E → Prop) : S → List E → Prop
  | _, [] => True
  | s, e :: es => ok s e ∧ Guarded ok (next s e) es

def total {M : Type} [AddMonoid M] (f : S → E → M) : S → List E → M
  | _, [] => 0
  | s, e :: es => f s e + total f (next s e) es

def trace {O : Type} (observe : S → E → O) : S → List E → List O
  | _, [] => []
  | s, e :: es => observe s e :: trace observe (next s e) es

variable {next}

@[simp] theorem final_nil (s : S) : final next s [] = s := rfl

@[simp] theorem final_cons (s : S) (e : E) (es : List E) :
    final next s (e :: es) = final next (next s e) es := rfl

theorem final_append (s : S) (es fs : List E) :
    final next s (es ++ fs) = final next (final next s es) fs := List.foldl_append

theorem final_concat (s : S) (es : List E) (e : E) :
    final next s (es ++ [e]) = next (final next s es) e := final_append s es [e]

theorem always_nil {P : S → Prop} {s : S} : Always next P s [] ↔ P s := by
  simp [Always]

theorem always_cons {P : S → Prop} {s : S} {e : E} {es : List E} :
    Always next P s (e :: es) ↔ P s ∧ Always next P (next s e) es := by
  constructor
  · intro h
    refine ⟨h [] ⟨e :: es, rfl⟩, fun pre hp => ?_⟩
    exact h (e :: pre) (List.cons_prefix_cons.mpr ⟨rfl, hp⟩)
  · rintro ⟨hs, h⟩ pre hp
    cases pre with
    | nil => exact hs
    | cons d pre =>
      obtain ⟨he, hpre⟩ := List.cons_prefix_cons.mp hp
      subst he
      exact h pre hpre

theorem Always.head {P : S → Prop} {s : S} {es : List E} (h : Always next P s es) : P s :=
  h [] ⟨es, rfl⟩

theorem Always.last {P : S → Prop} {s : S} {es : List E} (h : Always next P s es) :
    P (final next s es) :=
  h es ⟨[], List.append_nil es⟩

theorem invariant {P : S → Prop} (hstep : ∀ s e, P s → P (next s e)) {s : S} (h : P s) (es : List E) :
    P (final next s es) := by
  induction es generalizing s with
  | nil => exact h
  | cons e es ih => exact ih (hstep s e h)

theorem invariant_trace {O : Type} {observe : S → E → O} {P : List O → S → Prop}
    (hstep : ∀ os s e, P os s → P (os ++ [observe s e]) (next s e)) {os : List O} {s : S} (h : P os s)
    (es : List E) : P (os ++ trace next observe s es) (final next s es) := by
  induction es generalizing os s with
  | nil =>
    rw [trace, List.append_nil]
    exact h
  | cons e es ih =>
    have htail := ih (hstep os s e h)
    rwa [List.append_assoc] at htail

theorem Guarded.always {J : S → Prop} {ok : S → E → Prop}
    (hstep : ∀ s e, J s → ok s e → J (next s e)) {s : S} (h : J s) {es : List E}
    (hg : Guarded next ok s es) : Always next J s es := by
  induction es generalizing s with
  | nil => exact always_nil.mpr h
  | cons e es ih => exact always_cons.mpr ⟨h, ih (hstep s e h hg.1) hg.2⟩

/-- The exact-guard rule: when every allowed step preserves `J`, which implies `P`, and every
other step from a `J`-state ends outside `P`, the runs that stay in `P` are those of allowed steps. -/
theorem always_iff_guarded {J P : S → Prop} {ok : S → E → Prop} (hJP : ∀ s, J s → P s)
    (hok : ∀ s e, J s → ok s e → J (next s e))
    (hbad : ∀ s e, J s → P (next s e) → ok s e) {s : S} (h : J s) (es : List E) :
    Always next P s es ↔ Guarded next ok s es := by
  constructor
  · intro ha
    induction es generalizing s with
    | nil => trivial
    | cons e es ih =>
      obtain ⟨_, ha⟩ := always_cons.mp ha
      have he := hbad s e h ha.head
      exact ⟨he, ih (hok s e h he) ha⟩
  · intro hg pre hp
    exact hJP _ (hg.always hok h pre hp)

theorem Guarded.imp_of_invariant {J : S → Prop} {ok ok' : S → E → Prop} (hstep : ∀ s e, J s → J (next s e))
    (himp : ∀ s e, J s → ok s e → ok' s e) {s : S} (h : J s) {es : List E} (hg : Guarded next ok s es) :
    Guarded next ok' s es := by
  induction es generalizing s with
  | nil => trivial
  | cons e es ih => exact ⟨himp s e h hg.1, ih (hstep s e h) hg.2⟩

theorem Guarded.imp {ok ok' : S → E → Prop} (himp : ∀ s e, ok s e → ok' s e) {s : S} {es : List E}
    (hg : Guarded next ok s es) : Guarded next ok' s es := by
  refine hg.imp_of_invariant (J := fun _ => True) ?_ ?_ trivial
  · intro s e _
    trivial
  · intro s e _ h
    exact himp s e h

theorem guarded_of_forall {ok : S → E → Prop} {es : List E} (h : ∀ e ∈ es, ∀ s, ok s e) (s : S) :
    Guarded next ok s es := by
  induction es generalizing s with
  | nil => trivial
  | cons e es ih =>
    obtain ⟨he, hes⟩ := List.forall_mem_cons.mp h
    exact ⟨he s, ih hes (next s e)⟩

theorem guarded_true (s : S) (es : List E) : Guarded next (fun _ _ => True) s es := by
  induction es generalizing s with
  | nil => trivial
  | cons e es ih => exact ⟨trivial, ih (next s e)⟩

theorem Guarded.final_eq_add_total {M : Type} [AddMonoid M] {J : S → Prop} {ok : S → E → Prop} {f : S → E → M}
    {g : S → M} (hstep : ∀ s e, J s → ok s e → J (next s e))
    (hg : ∀ s e, J s → ok s e → g (next s e) = g s + f s e) {s : S} (h : J s) {es : List E}
    (hok : Guarded next ok s es) : g (final next s es) = g s + total next f s es := by
  induction es generalizing s with
  | nil => exact (add_zero (g s)).symm
  | cons e es ih =>
    rw [final_cons, ih (hstep s e h hok.1) hok.2, hg s e h hok.1, total, add_assoc]

theorem Guarded.total_eq_zero {M : Type} [AddMonoid M] {f : S → E → M} {s : S} {es : List E}
    (h : Guarded next (fun s e => f s e = 0) s es) : total next f s es = 0 := by
  induction es generalizing s with
  | nil => rfl
  | cons e es ih => rw [total, h.1, ih h.2, add_zero]

theorem total_nonneg {M : Type} [AddCommMonoid M] [PartialOrder M] [IsOrderedAddMonoid M] {f : S → E → M}
    (hf : ∀ s e, 0 ≤ f s e) (s : S) (es : List E) : 0 ≤ total next f s es := by
  induction es generalizing s with
  | nil => exact le_rfl
  | cons e es ih => exact add_nonneg (hf s e) (ih (next s e))

theorem total_eq_zero_iff {M : Type} [AddCommMonoid M] [PartialOrder M] [IsOrderedAddMonoid M] {f : S → E → M}
    (hf : ∀ s e, 0 ≤ f s e) (s : S) (es : List E) :
    total next f s es = 0 ↔ Guarded next (fun s e => f s e = 0) s es := by
  induction es generalizing s with
  | nil => exact iff_of_true rfl trivial
  | cons e es ih =>
    change f s e + total next f (next s e) es = 0 ↔ f s e = 0 ∧ _
    rw [add_eq_zero_iff_of_nonneg (hf s e) (total_nonneg hf (next s e) es), ih]

/-- The stuttering rule: when a silent step changes nothing that `R` sees and shows nothing, a run
is related to the run of its other steps, and shows the same. -/
theorem stuttering {O : Type} (R : S → S → Prop) (J : S → Prop) (observe : S → E → List O) (loud : E → Bool)
    (hJ : ∀ s e, J s → J (next s e))
    (hsilent : ∀ s t e, R s t → J t → loud e = false → R s (next t e) ∧ observe t e = [])
    (hloud : ∀ s t e, R s t → loud e = true → R (next s e) (next t e) ∧ observe s e = observe t e)
    {s t : S} (hR : R s t) (ht : J t) (es : List E) :
    R (final next s (es.filter loud)) (final next t es) ∧
      (trace next observe s (es.filter loud)).flatten = (trace next observe t es).flatten := by
  induction es generalizing s t with
  | nil => exact ⟨hR, rfl⟩
  | cons e es ih =>
    cases he : loud e with
    | false =>
      obtain ⟨hR', hnothing⟩ := hsilent s t e hR ht he
      obtain ⟨hfinal, htrace⟩ := ih hR' (hJ t e ht)
      rw [List.filter_cons_of_neg (by simp [he])]
      refine ⟨hfinal, ?_⟩
      rw [trace, List.flatten_cons, hnothing, List.nil_append, htrace]
    | true =>
      obtain ⟨hR', hsame⟩ := hloud s t e hR he
      obtain ⟨hfinal, htrace⟩ := ih hR' (hJ t e ht)
      rw [List.filter_cons_of_pos (by simp [he])]
      refine ⟨hfinal, ?_⟩
      rw [trace, trace, List.flatten_cons, List.flatten_cons, hsame, htrace]

theorem Guarded.project {T : Type} {J : S → Prop} {ok : S → E → Prop} (see : S → T) (own : T → E → T)
    (hJ : ∀ s e, J s → ok s e → J (next s e)) (hsee : ∀ s e, J s → ok s e → see (next s e) = own (see s) e) {s : S}
    (h : J s) {es : List E} (hg : Guarded next ok s es) :
    ∀ pre, pre <+: es → see (final next s pre) = final own (see s) pre := by
  induction es generalizing s with
  | nil =>
    intro pre hp
    rw [List.prefix_nil.mp hp]
    rfl
  | cons e es ih =>
    intro pre hp
    cases pre with
    | nil => rfl
    | cons d pre =>
      obtain ⟨rfl, hpre⟩ := List.cons_prefix_cons.mp hp
      rw [final_cons, final_cons, ih (hJ s d h hg.1) hg.2 pre hpre, hsee s d h hg.1]

end TrinityOS.Run
