import TrinityOS.Interference
import TrinityOS.Service.Kernel

namespace TrinityOS.Service

open Relation (ReflTransGen)

/-- How far a call of `handle_drain` is: `holding` what it has read of `self.ready` for the
server, `logged` what it has told the log, and `returned` that and its answer. -/
inductive DrainPosition where
  | entered
  | assigned
  | holding (ready : Bool)
  | stored
  | logged (entry : Bool)
  | returned (entry answer : Bool)

def DrainPosition.underWay : DrainPosition → Bool
  | .entered | .returned .. => false
  | _ => true

structure Readiness where
  kernel : Bool
  server : Bool

namespace Drains

/-- The next access to one of the attributes. The server handles every request in a thread of its
own, so that any number of calls take turns. -/
def handleDrain (enable : Bool) (s : Readiness) : DrainPosition → Option (Readiness × DrainPosition)
  | .entered => some ({ s with kernel := !enable }, .assigned)
  | .assigned => some (s, .holding s.kernel)
  | .holding ready => some ({ s with server := ready }, .stored)
  | .stored => some (s, .logged s.kernel)
  | .logged entry => some (s, .returned entry s.kernel)
  | .returned .. => none

variable {ι : Type}

def procedure (enable : ι → Bool) : Procedure ι Readiness DrainPosition where
  Access i c d := handleDrain (enable i) c.1 c.2 = some d
  underWay := DrainPosition.underWay

def Consistent (enable : ι → Bool) (m : Procedure.Calls ι Readiness DrainPosition) : Prop :=
  ((∀ i, ¬(procedure enable).UnderWay m i) → m.shared.server = m.shared.kernel) ∧
    ∀ i entry answer, m.position i = .returned entry answer → entry = !enable i ∧ answer = !enable i

def Faithful (ready : Bool) (s : Readiness) : DrainPosition → Prop
  | .entered => True
  | .assigned => s.kernel = ready
  | .holding held => s.kernel = ready ∧ held = ready
  | .stored => s.kernel = ready ∧ s.server = ready
  | .logged entry => s.kernel = ready ∧ s.server = ready ∧ entry = ready
  | .returned entry answer => entry = ready ∧ answer = ready

variable {ready : Bool} {s s' : Readiness} {p : DrainPosition}

theorem Faithful.kernel (h : Faithful ready s p) (hunder : p.underWay = true) : s.kernel = ready := by
  cases p with
  | entered => cases hunder
  | assigned => exact h
  | returned => cases hunder
  | _ => exact h.1

theorem Faithful.mono (h : Faithful ready s p) (hkernel : p.underWay = true → s'.kernel = ready)
    (hserver : p.underWay = true → s.server = ready → s'.server = ready) : Faithful ready s' p := by
  cases p with
  | entered => trivial
  | assigned => exact hkernel rfl
  | holding => exact ⟨hkernel rfl, h.2⟩
  | stored => exact ⟨hkernel rfl, hserver rfl h.2⟩
  | logged => exact ⟨hkernel rfl, hserver rfl h.2.1, h.2.2⟩
  | returned => exact h

theorem Faithful.own {enable : Bool} {d : Readiness × DrainPosition} (h : Faithful (!enable) s p)
    (hd : handleDrain enable s p = some d) : Faithful (!enable) d.1 d.2 := by
  cases p with
  | returned => cases hd
  | _ =>
    obtain rfl := Option.some.inj hd
    simp_all [Faithful]

theorem Faithful.others {enable enable' : Bool} {d : Readiness × DrainPosition} {q : DrainPosition}
    (h : Faithful (!enable) s p) (hd : handleDrain enable s p = some d) (hq : Faithful (!enable') s q)
    (hsame : q.underWay = true → enable = enable') : Faithful (!enable') d.1 q := by
  have hkernel (hunder : q.underWay = true) : d.1.kernel = !enable' := by
    cases p with
    | entered =>
      obtain rfl := Option.some.inj hd
      rw [hsame hunder]
    | returned => cases hd
    | _ =>
      obtain rfl := Option.some.inj hd
      exact hq.kernel hunder
  have hserver (hunder : q.underWay = true) (hold : s.server = !enable') : d.1.server = !enable' := by
    cases p with
    | holding held =>
      obtain rfl := Option.some.inj hd
      rw [← hsame hunder]
      exact h.2
    | returned => cases hd
    | _ =>
      obtain rfl := Option.some.inj hd
      exact hold
  exact hq.mono hkernel hserver

theorem Faithful.returns {enable : Bool} {d : Readiness × DrainPosition} (h : Faithful (!enable) s p)
    (hd : handleDrain enable s p = some d) (hreturned : d.2.underWay = false) : d.1.server = d.1.kernel := by
  cases p with
  | logged entry =>
    obtain rfl := Option.some.inj hd
    exact h.2.1.trans h.1.symm
  | returned => cases hd
  | _ =>
    obtain rfl := Option.some.inj hd
    cases hreturned

variable {enable : ι → Bool} {Overlap : ι → ι → Prop}

def outline (hmodes : ∀ i j, Overlap i j → enable i = enable j) : (procedure enable).Outline Overlap where
  invariant _ := True
  assertion i s p := Faithful (!enable i) s p
  quiet s := s.server = s.kernel
  own hd _ h := ⟨trivial, h.own hd⟩
  others {i j _ _ _} hd _ hoverlap _ h hq := by
    refine h.others hd hq fun hunder => ?_
    rcases hoverlap hunder with hij | hji
    · exact hmodes i j hij
    · exact (hmodes j i hji).symm
  returns hd _ h hreturned := h.returns hd hreturned

theorem reaches_holding (i : ι) (s : Readiness) : ReflTransGen ((procedure enable).Access i) (s, .entered)
    ({ s with kernel := !enable i }, .holding (!enable i)) := by
  let s₁ : Readiness := { s with kernel := !enable i }
  have hassigned : (procedure enable).Access i (s, .entered) (s₁, .assigned) := rfl
  have hholding : (procedure enable).Access i (s₁, .assigned) (s₁, .holding s₁.kernel) := rfl
  exact .tail (.single hassigned) hholding

theorem holding_reaches_returned (i : ι) (s : Readiness) (held : Bool) : ReflTransGen ((procedure enable).Access i)
    (s, .holding held) ({ s with server := held }, .returned s.kernel s.kernel) := by
  let s₁ : Readiness := { s with server := held }
  have hstored : (procedure enable).Access i (s, .holding held) (s₁, .stored) := rfl
  have hlogged : (procedure enable).Access i (s₁, .stored) (s₁, .logged s₁.kernel) := rfl
  have hreturned : (procedure enable).Access i (s₁, .logged s₁.kernel) (s₁, .returned s₁.kernel s₁.kernel) := rfl
  exact (ReflTransGen.single hstored).tail hlogged |>.tail hreturned

theorem handleDrain_alone {env : Environment} {kernel : TrinityKernel} {server : Bool} {w : World} (actor : String)
    (i : ι) (happ : kernel.apiServer = true) (hw : w.server = ⟨some kernel, some server⟩) :
    ∃ res t s' answer, kernel.handleDrain env actor (enable i) w = (.returned res, t) ∧
      ReflTransGen ((procedure enable).Access i) (⟨kernel.ready, server⟩, .entered) (s', .returned answer answer) ∧
      t.server = ⟨some { kernel with ready := s'.kernel }, some s'.server⟩ ∧
      res.get "ready" = .ok (.bool answer) := by
  obtain ⟨configFile, config, ready, apiServer⟩ := kernel
  obtain rfl : apiServer = true := happ
  obtain ⟨_, files, buffer, sends, connectionClosed, stderrClosed, trace⟩ := w
  obtain rfl := hw
  have hreaches : ReflTransGen ((procedure enable).Access i) (⟨ready, server⟩, .entered)
      (⟨!enable i, !enable i⟩, .returned (!enable i) (!enable i)) :=
    (reaches_holding i _).trans (holding_reaches_returned i _ _)
  refine ⟨_, _, ⟨!enable i, !enable i⟩, !enable i, rfl, hreaches, rfl, ?_⟩
  simp [record, Value.get, Value.lookup, str]

variable [DecidableEq ι]

abbrev Reachable (enable : ι → Bool) (Overlap : ι → ι → Prop) (ready : Bool) :
    Procedure.Calls ι Readiness DrainPosition → Prop :=
  (procedure enable).Reachable Overlap ⟨ready, ready⟩ .entered

theorem exists_torn (ready : Bool) {i j : ι} (hoverlap : Overlap i j) (hmodes : enable i ≠ enable j) :
    ∃ m, Reachable enable Overlap ready m ∧ (∀ k, ¬(procedure enable).UnderWay m k) ∧
      m.shared.server ≠ m.shared.kernel := by
  have hne : j ≠ i := by
    rintro rfl
    exact hmodes rfl
  let m₀ : Procedure.Calls ι Readiness DrainPosition := ⟨⟨ready, ready⟩, fun _ => .entered⟩
  let m₁ := m₀.moveTo j ({ m₀.shared with kernel := !enable j }, .holding (!enable j))
  let m₂ := m₁.moveTo i (⟨!enable i, !enable i⟩, .returned (!enable i) (!enable i))
  have hothers (k : ι) (hk : k ≠ j) : m₁.position k = .entered := m₀.moveTo_of_ne hk _
  have hentered : m₁.position i = .entered := hothers i hne.symm
  have hholding : m₂.position j = .holding (!enable j) := (m₁.moveTo_of_ne hne _).trans (m₀.moveTo_self j _)
  have hidle (k : ι) (hk : k ≠ j) : ¬(procedure enable).UnderWay m₂ k := by
    by_cases hki : k = i
    · subst hki
      rw [Procedure.UnderWay, Procedure.Calls.moveTo_self]
      exact Bool.false_ne_true
    · rw [Procedure.UnderWay, Procedure.Calls.moveTo_of_ne m₁ hki, hothers k hk]
      exact Bool.false_ne_true
  have h₁ : Reachable enable Overlap ready m₁ := by
    refine Procedure.Reachable.run .refl (fun k _ hk => ?_) (reaches_holding j m₀.shared)
    cases hk
  have h₂ : Reachable enable Overlap ready m₂ := by
    refine h₁.run (fun k _ hk => ?_) ?_
    · by_cases hkj : k = j
      · exact hkj ▸ hoverlap
      · rw [Procedure.UnderWay, hothers k hkj] at hk
        cases hk
    · rw [hentered]
      exact (reaches_holding i m₁.shared).trans (holding_reaches_returned i _ _)
  refine ⟨m₂.moveTo j (⟨!enable i, !enable j⟩, .returned (!enable i) (!enable i)), ?_, fun k => ?_, ?_⟩
  · refine h₂.run (fun k hk hunder => absurd hunder (hidle k hk)) ?_
    rw [hholding]
    exact holding_reaches_returned j _ _
  · by_cases hk : k = j
    · subst hk
      rw [Procedure.UnderWay, Procedure.Calls.moveTo_self]
      exact Bool.false_ne_true
    · rw [Procedure.underWay_moveTo_of_ne hk]
      exact hidle k hk
  · change (!enable j) ≠ (!enable i)
    simpa using hmodes.symm

theorem drains_consistent_iff (enable : ι → Bool) (Overlap : ι → ι → Prop) (ready : Bool) :
    (∀ m, Reachable enable Overlap ready m → Consistent enable m) ↔ ∀ i j, Overlap i j → enable i = enable j := by
  constructor
  · intro h i j hoverlap
    by_contra hmodes
    obtain ⟨m, hm, hidle, htorn⟩ := exists_torn ready hoverlap hmodes
    exact htorn ((h m hm).1 hidle)
  · intro hmodes m hm
    have hentered (i : ι) : Faithful (!enable i) ⟨ready, ready⟩ .entered := trivial
    have hall : (outline hmodes).Holds m := by
      refine (outline hmodes).holds_of_reachable rfl trivial ?_ ?_ hm
      · exact hentered
      · exact Eq.refl ready
    refine ⟨hall.quiet, fun i entry answer hposition => ?_⟩
    have hi := hall.assertion i
    rw [hposition] at hi
    exact hi

end Drains

end TrinityOS.Service
