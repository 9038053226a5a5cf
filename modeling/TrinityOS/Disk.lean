import Mathlib.Data.List.Basic
import Mathlib.Logic.Function.Basic

namespace TrinityOS

/-- The file that was created under `name`, as the `birth`-th of the disk. -/
structure Inode (ν : Type) where
  name : ν
  birth : ℕ

/-- Directory entries and contents. A file outlives its entry, for whoever has it open. -/
structure Disk (ν β : Type) where
  entries : ν → Option (Inode ν)
  data : Inode ν → List β
  created : ℕ
  born : ∀ p n, entries p = some n → n.birth ≤ created
  /-- no file has two names -/
  unlinked : ∀ p q n, entries p = some n → entries q = some n → p = q

/-- `data` with `piece` written at `offset`, and a gap between the two filled up. -/
def patch {β : Type} (zero : β) (data : List β) (offset : ℕ) (piece : List β) : List β :=
  data.take offset ++ List.replicate (offset - data.length) zero ++ piece ++ data.drop (offset + piece.length)

theorem patch_end {β : Type} (zero : β) (data piece : List β) : patch zero data data.length piece = data ++ piece := by
  simp [patch]

namespace Disk

variable {ν β : Type} (d : Disk ν β)

def files (p : ν) : Option (List β) := (d.entries p).map d.data

def Holds (p : ν) (n : Inode ν) (content : List β) : Prop := d.entries p = some n ∧ d.data n = content

def ofFiles (files : ν → Option (List β)) : Disk ν β where
  entries p := (files p).map fun _ => ⟨p, 0⟩
  data n := (files n.name).getD []
  created := 0
  born p n h := by
    obtain ⟨_, -, rfl⟩ := Option.map_eq_some_iff.mp h
    exact Nat.le_refl _
  unlinked p q n hp hq := by
    obtain ⟨_, -, rfl⟩ := Option.map_eq_some_iff.mp hp
    obtain ⟨_, -, hq⟩ := Option.map_eq_some_iff.mp hq
    injection hq with hname
    exact hname.symm

variable {d} {p q : ν} {n : Inode ν} {content : List β}

theorem files_ofFiles (files : ν → Option (List β)) : (ofFiles files).files = files := by
  funext p
  unfold Disk.files ofFiles
  cases h : files p <;> simp [h]

theorem Holds.files (h : d.Holds p n content) : d.files p = some content := by
  rw [Disk.files, h.1, Option.map_some, h.2]

theorem exists_holds (h : d.files p = some content) : ∃ n, d.Holds p n content := by
  obtain ⟨n, hn, hdata⟩ := Option.map_eq_some_iff.mp h
  exact ⟨n, hn, hdata⟩

theorem Holds.ne (h : d.Holds p n content) {m : Inode ν} (hm : d.entries q = some m) (hne : p ≠ q) : n ≠ m := by
  rintro rfl
  exact hne (d.unlinked p q n h.1 hm)

theorem files_eq_of_holds {d' : Disk ν β} (hnone : d.entries p = none → d'.entries p = none)
    (h : ∀ n content, d.Holds p n content → d'.Holds p n content) : d'.files p = d.files p := by
  cases hp : d.entries p with
  | none => rw [Disk.files, Disk.files, hp, hnone hp]; rfl
  | some n => rw [(h n (d.data n) ⟨hp, rfl⟩).files, Disk.files, hp, Option.map_some]

instance [DecidableEq ν] : DecidableEq (Inode ν) := fun m n =>
  decidable_of_iff (m.name = n.name ∧ m.birth = n.birth) (by cases m; cases n; simp)

section operations

variable [DecidableEq ν] (d)

def truncate (n : Inode ν) : Disk ν β := { d with data := Function.update d.data n [] }

def fresh (p : ν) : Inode ν := ⟨p, d.created + 1⟩

def create (p : ν) : Disk ν β where
  entries := Function.update d.entries p (some (d.fresh p))
  data := Function.update d.data (d.fresh p) []
  created := d.created + 1
  born q n h := by
    by_cases hq : q = p
    · subst hq
      rw [Function.update_self] at h
      obtain rfl := Option.some.inj h
      exact Nat.le_refl _
    · rw [Function.update_of_ne hq] at h
      exact Nat.le_succ_of_le (d.born q n h)
  unlinked q r n hq hr := by
    have hold (s : ν) (hs : s ≠ p) (h : Function.update d.entries p (some (d.fresh p)) s = some n) :
        d.entries s = some n ∧ n ≠ d.fresh p := by
      rw [Function.update_of_ne hs] at h
      refine ⟨h, ?_⟩
      rintro rfl
      exact absurd (d.born s _ h) (Nat.not_succ_le_self _)
    by_cases hqp : q = p
    · by_cases hrp : r = p
      · rw [hqp, hrp]
      · rw [hqp, Function.update_self] at hq
        exact absurd (Option.some.inj hq).symm (hold r hrp hr).2
    · by_cases hrp : r = p
      · rw [hrp, Function.update_self] at hr
        exact absurd (Option.some.inj hr).symm (hold q hqp hq).2
      · exact d.unlinked q r n (hold q hqp hq).1 (hold r hrp hr).1

/-- `open(p, "w")` -/
def openWrite (p : ν) : Disk ν β × Inode ν :=
  (d.entries p).elim (d.create p, d.fresh p) fun n => (d.truncate n, n)

def write (zero : β) (n : Inode ν) (offset : ℕ) (piece : List β) : Disk ν β :=
  { d with data := Function.update d.data n (patch zero (d.data n) offset piece) }

/-- `os.replace(src, dst)` of a name that exists. -/
def replace (src dst : ν) : Disk ν β where
  entries p := if p = dst then d.entries src else if p = src then none else d.entries p
  data := d.data
  created := d.created
  born p n h := by
    split at h
    · exact d.born src n h
    · split at h
      · cases h
      · exact d.born p n h
  unlinked p q n hp hq := by
    split at hp <;> split at hq
    · next hpdst hqdst => rw [hpdst, hqdst]
    · split at hq
      · cases hq
      · next hne => exact absurd (d.unlinked q src n hq hp) hne
    · split at hp
      · cases hp
      · next hne => exact absurd (d.unlinked p src n hp hq) hne
    · split at hp
      · cases hp
      · split at hq
        · cases hq
        · exact d.unlinked p q n hp hq

variable {d}

theorem holds_openWrite (d : Disk ν β) (p : ν) : (d.openWrite p).1.Holds p (d.openWrite p).2 [] := by
  unfold openWrite
  cases h : d.entries p with
  | none => exact ⟨Function.update_self _ _ _, Function.update_self _ _ _⟩
  | some n => exact ⟨h, Function.update_self _ _ _⟩

theorem Holds.openWrite (h : d.Holds q n content) (hne : q ≠ p) : (d.openWrite p).1.Holds q n content := by
  unfold Disk.openWrite
  cases hp : d.entries p with
  | none =>
    refine ⟨(Function.update_of_ne hne _ _).trans h.1, (Function.update_of_ne ?_ _ _).trans h.2⟩
    rintro rfl
    exact absurd (d.born q _ h.1) (Nat.not_succ_le_self _)
  | some m => exact ⟨h.1, (Function.update_of_ne (h.ne hp hne) _ _).trans h.2⟩

theorem files_openWrite (d : Disk ν β) (hne : q ≠ p) : (d.openWrite p).1.files q = d.files q := by
  refine files_eq_of_holds (fun hq => ?_) fun n content h => h.openWrite hne
  unfold Disk.openWrite
  cases hp : d.entries p with
  | none => exact (Function.update_of_ne hne _ _).trans hq
  | some m => exact hq

theorem Holds.write_self (h : d.Holds p n content) (zero : β) (offset : ℕ) (piece : List β) :
    (d.write zero n offset piece).Holds p n (patch zero content offset piece) := by
  refine ⟨h.1, ?_⟩
  rw [← h.2]
  exact Function.update_self _ _ _

theorem Holds.write (h : d.Holds q n content) {m : Inode ν} (hm : d.entries p = some m) (hne : q ≠ p) (zero : β)
    (offset : ℕ) (piece : List β) : (d.write zero m offset piece).Holds q n content :=
  ⟨h.1, (Function.update_of_ne (h.ne hm hne) _ _).trans h.2⟩

theorem Holds.files_write (h : d.Holds p n content) (hne : q ≠ p) (zero : β) (offset : ℕ) (piece : List β) :
    (d.write zero n offset piece).files q = d.files q :=
  files_eq_of_holds (fun hq => hq) fun _ _ hq => hq.write h.1 hne zero offset piece

theorem Holds.replace_self (h : d.Holds p n content) (dst : ν) : (d.replace p dst).Holds dst n content :=
  ⟨(if_pos rfl).trans h.1, h.2⟩

theorem Holds.replace (h : d.Holds q n content) {src dst : ν} (hsrc : q ≠ src) (hdst : q ≠ dst) :
    (d.replace src dst).Holds q n content :=
  ⟨((if_neg hdst).trans (if_neg hsrc)).trans h.1, h.2⟩

theorem files_replace (d : Disk ν β) {src dst : ν} (hsrc : q ≠ src) (hdst : q ≠ dst) :
    (d.replace src dst).files q = d.files q :=
  files_eq_of_holds (fun hq => ((if_neg hdst).trans (if_neg hsrc)).trans hq) fun _ _ h => h.replace hsrc hdst

end operations

end Disk

end TrinityOS
