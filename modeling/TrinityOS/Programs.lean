import Mathlib.Data.Nat.Notation

namespace TrinityOS

theorem Except.of_bind_eq_ok {ε α β : Type} {x : Except ε α} {f : α → Except ε β} {b : β} (h : x >>= f = .ok b) :
    ∃ a, x = .ok a ∧ f a = .ok b := by
  cases x with
  | error e => cases h
  | ok a => exact ⟨a, rfl, h⟩

/-- How a run ends. `running` is a run whose loops have used up the rounds they were given, or one
that waits. -/
inductive Outcome (ε α : Type) where
  | returned (a : α)
  | raised (e : ε)
  | running

/-- Programs over a state `σ` that may raise an `ε` or never stop. -/
def Program (σ ε α : Type) := σ → Outcome ε α × σ

namespace Program

variable {σ ε α β τ : Type}

protected def pure (a : α) : Program σ ε α := fun s => (.returned a, s)

protected def bind (p : Program σ ε α) (f : α → Program σ ε β) : Program σ ε β := fun s =>
  match p s with
  | (.returned a, t) => f a t
  | (.raised e, t) => (.raised e, t)
  | (.running, t) => (.running, t)

instance : Monad (Program σ ε) where
  pure := Program.pure
  bind := Program.bind

def raise (e : ε) : Program σ ε α := fun s => (.raised e, s)

def wait : Program σ ε α := fun s => (.running, s)

def ofExcept : Except ε α → Program σ ε α
  | .ok a => pure a
  | .error e => raise e

def read : Program σ ε σ := fun s => (.returned s, s)

def modify (f : σ → σ) : Program σ ε Unit := fun s => (.returned (), f s)

/-- The body of a `try`: what it raises is handed to the `except` clauses. -/
def attempt (p : Program σ ε α) : Program σ ε (Except ε α) := fun s =>
  match p s with
  | (.returned a, t) => (.returned (.ok a), t)
  | (.raised e, t) => (.returned (.error e), t)
  | (.running, t) => (.running, t)

/-- A `while` loop of at most `fuel` rounds; round `i` says whether there is another one. -/
def rounds (body : ℕ → Program σ ε Bool) : ℕ → ℕ → Program σ ε Unit
  | 0, _ => wait
  | fuel + 1, i => do
    if ← body i then rounds body fuel (i + 1)

theorem bind_cases (p : Program σ ε α) (f : α → Program σ ε β) (s : σ) :
    (∃ a t, p s = (.returned a, t) ∧ (p >>= f) s = f a t) ∨
    (∃ e t, p s = (.raised e, t) ∧ (p >>= f) s = (.raised e, t)) ∨
    ∃ t, p s = (.running, t) ∧ (p >>= f) s = (.running, t) := by
  have hbind : (p >>= f) s = Program.bind p f s := rfl
  rw [hbind]
  unfold Program.bind
  rcases hps : p s with ⟨a | e | _, t⟩
  · exact .inl ⟨a, t, rfl, rfl⟩
  · exact .inr (.inl ⟨e, t, rfl, rfl⟩)
  · exact .inr (.inr ⟨t, rfl, rfl⟩)

theorem bind_of_returned {p : Program σ ε α} {f : α → Program σ ε β} {s t : σ} {a : α} (h : p s = (.returned a, t)) :
    (p >>= f) s = f a t := by
  change Program.bind p f s = f a t
  rw [Program.bind, h]

/-- From a state of `I`, `p` returns in a state of `R`, raises in one of `E`, or is cut off in one
of `U`. -/
def Triple (I : σ → Prop) (p : Program σ ε α) (R : α → σ → Prop) (E : ε → σ → Prop)
    (U : σ → Prop) : Prop :=
  ∀ s, I s →
    match p s with
    | (.returned a, t) => R a t
    | (.raised e, t) => E e t
    | (.running, t) => U t

section rules

variable {I : σ → Prop} {p : Program σ ε α} {R : α → σ → Prop} {E : ε → σ → Prop} {U : σ → Prop}

theorem triple_pure {a : α} (h : ∀ s, I s → R a s) : Triple I (pure a) R E U := fun s hs => h s hs

theorem triple_raise {e : ε} (h : ∀ s, I s → E e s) : Triple I (raise e) R E U := fun s hs => h s hs

theorem triple_wait (h : ∀ s, I s → U s) : Triple I wait R E U := fun s hs => h s hs

theorem triple_ofExcept {r : Except ε α} (hok : ∀ a, r = .ok a → ∀ s, I s → R a s)
    (herror : ∀ e, r = .error e → ∀ s, I s → E e s) : Triple I (ofExcept r) R E U := by
  cases r with
  | ok a => exact triple_pure (hok a rfl)
  | error e => exact triple_raise (herror e rfl)

theorem ofExcept_ok_bind {a : α} {f : α → Program σ ε β} : (ofExcept (.ok a) >>= f) = f a := rfl

theorem triple_read_bind {f : σ → Program σ ε α} (h : ∀ s, I s → Triple (· = s) (f s) R E U) :
    Triple I (read >>= f) R E U :=
  fun s hs => h s hs s rfl

theorem triple_modify {f : σ → σ} {R : Unit → σ → Prop} (h : ∀ s, I s → R () (f s)) :
    Triple I (modify f) R E U :=
  fun s hs => h s hs

theorem Triple.bind {f : α → Program σ ε β} {R' : β → σ → Prop} (hp : Triple I p R E U)
    (hf : ∀ a, Triple (R a) (f a) R' E U) : Triple I (p >>= f) R' E U := by
  intro s hs
  have h := hp s hs
  obtain ⟨a, t, hps, hbind⟩ | ⟨e, t, hps, hbind⟩ | ⟨t, hps, hbind⟩ := bind_cases p f s
  · rw [hps] at h
    rw [hbind]
    exact hf a t h
  · rw [hps] at h
    rw [hbind]
    exact h
  · rw [hps] at h
    rw [hbind]
    exact h

theorem Triple.attempt {R : Except ε α → σ → Prop}
    (h : Triple I p (fun a => R (.ok a)) (fun e => R (.error e)) U) :
    Triple I p.attempt R E U := by
  intro s hs
  have h := h s hs
  unfold Program.attempt
  rcases hps : p s with ⟨a | e | _, t⟩ <;> rw [hps] at h <;> exact h

theorem Triple.ite {c : Prop} [Decidable c] {q : Program σ ε α} (hp : c → Triple I p R E U)
    (hq : ¬c → Triple I q R E U) : Triple I (if c then p else q) R E U := by
  split
  · next h => exact hp h
  · next h => exact hq h

theorem Triple.mono {J U' : σ → Prop} {R' : α → σ → Prop} {E' : ε → σ → Prop}
    (h : Triple I p R E U) (hpre : ∀ s, J s → I s) (hreturned : ∀ a s, R a s → R' a s)
    (hraised : ∀ e s, E e s → E' e s) (hcut : ∀ s, U s → U' s) : Triple J p R' E' U' := by
  intro s hs
  have h := h s (hpre s hs)
  rcases hps : p s with ⟨a | e | _, t⟩
  · rw [hps] at h
    exact hreturned a t h
  · rw [hps] at h
    exact hraised e t h
  · rw [hps] at h
    exact hcut t h

theorem Triple.strengthen {J : σ → Prop} (h : Triple I p R E U) (hJ : ∀ s, J s → I s) :
    Triple J p R E U :=
  h.mono hJ (fun _ _ h => h) (fun _ _ h => h) fun _ h => h

theorem Triple.at_state {s : σ} (h : Triple I p R E U) (hs : I s) : Triple (· = s) p R E U := by
  apply h.strengthen
  rintro _ rfl
  exact hs

theorem Triple.final {J : σ → Prop} {s : σ} (h : Triple I p (fun _ => J) (fun _ => J) J) (hs : I s) :
    J (p s).2 := by
  have h := h s hs
  rcases hps : p s with ⟨a | e | _, t⟩
  all_goals
    rw [hps] at h
    exact h

theorem Triple.assume {c : Prop} (h : c → Triple I p R E U) : Triple (fun s => I s ∧ c) p R E U :=
  fun s hs => h hs.2 s hs.1

theorem triple_exists {γ : Type} {I : γ → σ → Prop} (h : ∀ c, Triple (I c) p R E U) :
    Triple (fun s => ∃ c, I c s) p R E U := by
  rintro s ⟨c, hs⟩
  exact h c s hs

theorem Triple.weaken {R' : α → σ → Prop} (h : Triple I p R E U) (hR : ∀ a s, R a s → R' a s) :
    Triple I p R' E U :=
  h.mono (fun _ h => h) hR (fun _ _ h => h) fun _ h => h

theorem triple_counted {I : ℕ → σ → Prop} {R : σ → Prop} {body : ℕ → Program σ ε Bool}
    (hbody : ∀ i, Triple (I i) (body i) (fun again s => if again then I (i + 1) s else R s) E U)
    (fuel i : ℕ) (hcut : ∀ s, I (i + fuel) s → U s) : Triple (I i) (rounds body fuel i) (fun _ => R) E U := by
  induction fuel generalizing i with
  | zero => exact hcut
  | succ fuel ih =>
    refine (hbody i).bind fun again => ?_
    cases again with
    | true =>
      rw [← Nat.add_assoc, Nat.add_right_comm] at hcut
      exact ih (i + 1) hcut
    | false => exact triple_pure fun _ hs => hs

theorem triple_rounds {body : ℕ → Program σ ε Bool} (hbody : ∀ i, Triple I (body i) (fun _ => I) E U)
    (hcut : ∀ s, I s → U s) (fuel i : ℕ) : Triple I (rounds body fuel i) (fun _ => I) E U := by
  refine triple_counted (I := fun _ => I) (fun i => ?_) fuel i hcut
  refine (hbody i).weaken fun again s hs => ?_
  cases again <;> exact hs

abbrev Keeps (I : σ → Prop) (p : Program σ ε α) : Prop := Triple I p (fun _ => I) (fun _ => I) I

theorem Keeps.of_state (h : ∀ s, I s → I (p s).2) : Keeps I p := by
  intro s hs
  have h := h s hs
  rcases hps : p s with ⟨a | e | _, t⟩ <;> rwa [hps] at h

theorem Keeps.after {J : σ → Prop} (h : Keeps I p) (hIJ : ∀ s, I s → J s) :
    Triple I p (fun _ => J) (fun _ => J) J :=
  h.mono (fun _ h => h) (fun _ => hIJ) (fun _ => hIJ) hIJ

theorem Keeps.attempt (h : Keeps I p) : Triple I p.attempt (fun _ => I) E I :=
  Triple.attempt (R := fun _ => I) h

theorem keeps_pure (a : α) : Keeps I (pure a : Program σ ε α) := triple_pure fun _ h => h

theorem keeps_raise (e : ε) : Keeps I (raise e : Program σ ε α) := triple_raise fun _ h => h

theorem keeps_wait : Keeps I (wait : Program σ ε α) := triple_wait fun _ h => h

theorem keeps_ofExcept (r : Except ε α) : Keeps I (ofExcept r : Program σ ε α) :=
  triple_ofExcept (fun _ _ _ h => h) fun _ _ _ h => h

end rules

section frames

def Frames {γ : Type} (f : σ → γ) (p : Program σ ε α) : Prop :=
  ∀ s, (p s).1 ≠ .running ∧ f (p s).2 = f s

variable {γ : Type} {f : σ → γ} {p : Program σ ε α}

theorem frames_pure (a : α) : Frames f (pure a : Program σ ε α) := fun _ => ⟨nofun, rfl⟩

theorem frames_raise (e : ε) : Frames f (raise e : Program σ ε α) := fun _ => ⟨nofun, rfl⟩

theorem frames_ofExcept (r : Except ε α) : Frames f (ofExcept r : Program σ ε α) := by
  cases r with
  | ok a => exact frames_pure a
  | error e => exact frames_raise e

theorem frames_read : Frames f (read : Program σ ε σ) := fun _ => ⟨nofun, rfl⟩

theorem frames_modify {g : σ → σ} (h : ∀ s, f (g s) = f s) : Frames f (modify g : Program σ ε Unit) :=
  fun s => ⟨nofun, h s⟩

theorem Frames.bind {q : α → Program σ ε β} (hp : Frames f p) (hq : ∀ a, Frames f (q a)) :
    Frames f (p >>= q) := by
  intro s
  have h := hp s
  obtain ⟨a, t, hps, hbind⟩ | ⟨e, t, hps, hbind⟩ | ⟨t, hps, hbind⟩ := bind_cases p q s
  · rw [hps] at h
    rw [hbind]
    exact ⟨(hq a t).1, (hq a t).2.trans h.2⟩
  · rw [hps] at h
    rw [hbind]
    exact ⟨nofun, h.2⟩
  · rw [hps] at h
    exact absurd rfl h.1

theorem Frames.triple {I : σ → Prop} {U : σ → Prop} (h : Frames f p)
    (hI : ∀ s t, f s = f t → I s → I t) : Triple I p (fun _ => I) (fun _ => I) U := by
  intro s hs
  have h := h s
  rcases hps : p s with ⟨a | e | _, t⟩
  · rw [hps] at h
    exact hI s t h.2.symm hs
  · rw [hps] at h
    exact hI s t h.2.symm hs
  · rw [hps] at h
    exact absurd rfl h.1

end frames

section traces

variable (trace : σ → List τ) (S : τ → Prop)

def Emits (p : Program σ ε α) : Prop :=
  ∀ s, ∃ new, trace (p s).2 = trace s ++ new ∧ ∀ a ∈ new, S a

variable {trace S} {p : Program σ ε α}

theorem Emits.of_eq (h : ∀ s, trace (p s).2 = trace s) : Emits trace S p :=
  fun s => ⟨[], by simp [h s], by simp⟩

theorem emits_pure (a : α) : Emits trace S (pure a : Program σ ε α) := Emits.of_eq fun _ => rfl

theorem emits_raise (e : ε) : Emits trace S (raise e : Program σ ε α) := Emits.of_eq fun _ => rfl

theorem emits_wait : Emits trace S (wait : Program σ ε α) := Emits.of_eq fun _ => rfl

theorem emits_ofExcept (r : Except ε α) : Emits trace S (ofExcept r : Program σ ε α) := by
  cases r with
  | ok a => exact emits_pure a
  | error e => exact emits_raise e

theorem Emits.mono {T : τ → Prop} (h : Emits trace S p) (hi : ∀ a, S a → T a) : Emits trace T p := by
  intro s
  obtain ⟨new, hn, hS⟩ := h s
  exact ⟨new, hn, fun a ha => hi a (hS a ha)⟩

theorem Emits.bind {f : α → Program σ ε β} (hp : Emits trace S p) (hf : ∀ a, Emits trace S (f a)) :
    Emits trace S (p >>= f) := by
  intro s
  obtain ⟨new, hn, hS⟩ := hp s
  obtain ⟨a, t, hps, hbind⟩ | ⟨e, t, hps, hbind⟩ | ⟨t, hps, hbind⟩ := bind_cases p f s
  · obtain ⟨more, hm, hS'⟩ := hf a t
    rw [hps] at hn
    refine ⟨new ++ more, ?_, ?_⟩
    · rw [← List.append_assoc, ← hn, hbind]
      exact hm
    · intro b hb
      rcases List.mem_append.mp hb with hb | hb
      · exact hS b hb
      · exact hS' b hb
  · exact ⟨new, by rw [← hn, hps, hbind], hS⟩
  · exact ⟨new, by rw [← hn, hps, hbind], hS⟩

theorem Emits.attempt (h : Emits trace S p) : Emits trace S p.attempt := by
  intro s
  obtain ⟨new, hn, hS⟩ := h s
  refine ⟨new, ?_, hS⟩
  rw [← hn]
  unfold Program.attempt
  rcases p s with ⟨a | e | _, t⟩ <;> rfl

theorem Emits.ite {c : Prop} [Decidable c] {q : Program σ ε α} (hp : c → Emits trace S p)
    (hq : ¬c → Emits trace S q) : Emits trace S (if c then p else q) := by
  split
  · next h => exact hp h
  · next h => exact hq h

theorem emits_rounds {body : ℕ → Program σ ε Bool} (h : ∀ i, Emits trace S (body i)) (fuel i : ℕ) :
    Emits trace S (rounds body fuel i) := by
  induction fuel generalizing i with
  | zero => exact Emits.of_eq fun _ => rfl
  | succ fuel ih =>
    refine (h i).bind fun again => ?_
    cases again with
    | true => exact ih (i + 1)
    | false => exact emits_pure ()

def Behind (key : τ) (S T : τ → Prop) (l : List τ) : Prop :=
  ∀ i a, l[i]? = some a → S a ∨ T a ∧ key ∈ l.take i

theorem Behind.append {key : τ} {T : τ → Prop} {l m : List τ} (hl : Behind key S T l)
    (hm : Behind key S T m) : Behind key S T (l ++ m) := by
  intro i a ha
  by_cases hi : i < l.length
  · rw [List.getElem?_append_left hi] at ha
    apply (hl i a ha).imp_right
    rintro ⟨hT, hk⟩
    exact ⟨hT, by rw [List.take_append_of_le_length (by omega)]; exact hk⟩
  · rw [List.getElem?_append_right (by omega)] at ha
    apply (hm _ a ha).imp_right
    rintro ⟨hT, hk⟩
    exact ⟨hT, by rw [List.take_append]; exact List.mem_append_right _ hk⟩

variable (trace) in
def EmitsAfter (key : τ) (S T : τ → Prop) (p : Program σ ε α) : Prop :=
  ∀ s, ∃ new, trace (p s).2 = trace s ++ new ∧ Behind key S T new

variable {key : τ} {T : τ → Prop}

theorem Emits.after (h : Emits trace S p) : EmitsAfter trace key S T p := by
  intro s
  obtain ⟨new, hn, hS⟩ := h s
  exact ⟨new, hn, fun i a ha => .inl (hS a (List.mem_of_getElem? ha))⟩

theorem EmitsAfter.bind {f : α → Program σ ε β} (hp : EmitsAfter trace key S T p)
    (hf : ∀ a, EmitsAfter trace key S T (f a)) : EmitsAfter trace key S T (p >>= f) := by
  intro s
  obtain ⟨new, hn, hS⟩ := hp s
  obtain ⟨a, t, hps, hbind⟩ | ⟨e, t, hps, hbind⟩ | ⟨t, hps, hbind⟩ := bind_cases p f s
  · obtain ⟨more, hm, hS'⟩ := hf a t
    rw [hps] at hn
    refine ⟨new ++ more, ?_, hS.append hS'⟩
    rw [← List.append_assoc, ← hn, hbind]
    exact hm
  · exact ⟨new, by rw [← hn, hps, hbind], hS⟩
  · exact ⟨new, by rw [← hn, hps, hbind], hS⟩

theorem EmitsAfter.ite {c : Prop} [Decidable c] {q : Program σ ε α}
    (hp : c → EmitsAfter trace key S T p) (hq : ¬c → EmitsAfter trace key S T q) :
    EmitsAfter trace key S T (if c then p else q) := by
  split
  · next h => exact hp h
  · next h => exact hq h

theorem Emits.unlocked {f : α → Program σ ε β} (hp : ∀ s, trace (p s).2 = trace s ++ [key])
    (hkey : S key) (hf : ∀ a, Emits trace (fun b => S b ∨ T b) (f a)) :
    EmitsAfter trace key S T (p >>= f) := by
  have hsingle : Behind key S T [key] := by
    intro i a ha
    rw [List.mem_singleton.mp (List.mem_of_getElem? ha)]
    exact .inl hkey
  intro s
  have hn := hp s
  obtain ⟨a, t, hps, hbind⟩ | ⟨e, t, hps, hbind⟩ | ⟨t, hps, hbind⟩ := bind_cases p f s
  · obtain ⟨more, hm, hS'⟩ := hf a t
    rw [hps] at hn
    refine ⟨key :: more, ?_, ?_⟩
    · rw [List.append_cons, ← hn, hbind]
      exact hm
    · intro i b hb
      cases i with
      | zero =>
        obtain rfl : key = b := by simpa using hb
        exact .inl hkey
      | succ i =>
        apply (hS' b (List.mem_of_getElem? hb)).imp_right
        intro hT
        exact ⟨hT, by simp⟩
  · exact ⟨[key], by rw [← hn, hps, hbind], hsingle⟩
  · exact ⟨[key], by rw [← hn, hps, hbind], hsingle⟩

end traces

end Program

end TrinityOS
