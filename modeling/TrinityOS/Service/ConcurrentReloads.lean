import TrinityOS.Disk
import TrinityOS.Interference
import TrinityOS.Service.Session

namespace TrinityOS.Service

open Relation (ReflTransGen)
open TrinityKernel (ascii jsonLoad temporary)

/-- How far a call of `handle_reload` is: it reads the config file, and then writes the temporary
one, piece by piece. -/
inductive ReloadPosition (ρ : Type) where
  | entered
  | reading (file : Inode ρ) (content : List UInt8)
  | loaded (newCfg : Value)
  | writing (newCfg : Value) (tmp : Inode ρ) (offset : ℕ)
  | written (newCfg : Value)
  | replaced (newCfg : Value)
  | returned

namespace ReloadPosition

variable {ρ : Type}

def underWay : ReloadPosition ρ → Bool
  | entered | returned => false
  | _ => true

def mayFail : ReloadPosition ρ → Bool
  | replaced _ | returned => false
  | _ => true

end ReloadPosition

/-- The directory entries that a config path and the path of its temporary file lead to. -/
structure Target (ρ : Type) where
  file : ρ
  tmp : ρ

/-- `resolve` says which entry a path leads to; different paths may lead to one. A config path is
that of a file, not of a symbolic link, which `open` would follow and `os.replace` would not. -/
def Target.of {ρ : Type} (resolve : Str → ρ) (cfgFile : Str) : Target ρ where
  file := resolve cfgFile
  tmp := resolve (temporary (.str cfgFile))

structure Configured (ρ : Type) where
  disk : Disk ρ UInt8
  config : Value

section configured

variable {ρ : Type} [DecidableEq ρ]

def Configured.opened (s : Configured ρ) (target : Target ρ) : Configured ρ :=
  { s with disk := (s.disk.openWrite target.tmp).1 }

def Configured.filled (s : Configured ρ) (file : Inode ρ) (text : List Char) : Configured ρ :=
  { s with disk := s.disk.write 0 file 0 (ascii text) }

end configured

namespace Reloads

variable {ρ : Type} [DecidableEq ρ]

section access

variable (env : Environment)

/-- The next access to the disk or to the configuration, with up to `size` bytes. -/
def handleReload (target : Target ρ) (size : ℕ) (s : Configured ρ) : ReloadPosition ρ → Option (Configured ρ × ReloadPosition ρ)
  | .entered => (s.disk.entries target.file).map fun file => (s, .reading file [])
  | .reading file content =>
    let rest := (s.disk.data file).drop content.length
    if rest = [] then (jsonLoad env content).toOption.map fun newCfg => (s, .loaded newCfg)
    else some (s, .reading file (content ++ rest.take size))
  | .loaded newCfg =>
    let opened := s.disk.openWrite target.tmp
    some ({ s with disk := opened.1 }, .writing newCfg opened.2 0)
  | .writing newCfg tmp offset =>
    (dumpIndented env.floatRepr 0 newCfg).toOption.map fun text =>
      let piece := ((ascii text).drop offset).take size
      if (ascii text).drop offset = [] then (s, .written newCfg)
      else ({ s with disk := s.disk.write 0 tmp offset piece }, .writing newCfg tmp (offset + piece.length))
  | .written newCfg =>
    if (s.disk.entries target.tmp).isSome then
      some ({ s with disk := s.disk.replace target.tmp target.file }, .replaced newCfg)
    else none
  | .replaced newCfg => some ({ s with config := newCfg }, .returned)
  | .returned => none

inductive Access (target : Target ρ) : Configured ρ × ReloadPosition ρ → Configured ρ × ReloadPosition ρ → Prop
  | next {s : Configured ρ} {p : ReloadPosition ρ} {d : Configured ρ × ReloadPosition ρ} (size : ℕ)
      (h : handleReload env target size s p = some d) : Access target (s, p) d
  | fail {s : Configured ρ} {p : ReloadPosition ρ} (h : p.mayFail = true) : Access target (s, p) (s, .returned)

def procedure {ι : Type} (targets : ι → Target ρ) : Procedure ι (Configured ρ) (ReloadPosition ρ) where
  Access i := Access env (targets i)
  underWay := ReloadPosition.underWay

end access

section calls

variable {env : Environment} {target : Target ρ} {size : ℕ} {s s' : Configured ρ} {p : ReloadPosition ρ} {v : Value}
  {d : Configured ρ × ReloadPosition ρ}

theorem jsonLoad_dump (hf : RepresentsFloats env.floatRepr) {before : List UInt8} (hv : jsonLoad env before = .ok v)
    {text : List Char} (htext : dumpIndented env.floatRepr 0 v = .ok text) : jsonLoad env (ascii text) = .ok v := by
  obtain ⟨hloads, hascii⟩ := (TrinityKernel.loadable_of_jsonLoad hv).loads_dump hf htext
  rw [jsonLoad, TrinityKernel.decodeStrict_ascii hascii]
  exact hloads

theorem ne_nil_of_jsonLoad {content : List UInt8} (h : jsonLoad env content = .ok v) : content ≠ [] := by
  rintro rfl
  have hnil : jsonLoad env [] = loads env.depth [] := rfl
  rw [hnil, loads_nil] at h
  cases h

def Faithful (env : Environment) (target : Target ρ) (v : Value) (s : Configured ρ) : ReloadPosition ρ → Prop
  | .entered | .returned => True
  | .reading file content => ∃ bytes, s.disk.Holds target.file file bytes ∧ content <+: bytes ∧ jsonLoad env bytes = .ok v
  | .loaded newCfg | .replaced newCfg => newCfg = v
  | .writing newCfg tmp offset => newCfg = v ∧ ∃ text, dumpIndented env.floatRepr 0 v = .ok text ∧
      s.disk.Holds target.tmp tmp ((ascii text).take offset)
  | .written newCfg => newCfg = v ∧ ∃ text tmp, dumpIndented env.floatRepr 0 v = .ok text ∧
      s.disk.Holds target.tmp tmp (ascii text)

omit [DecidableEq ρ] in
theorem Faithful.mono (h : Faithful env target v s p)
    (hfile : ∀ n bytes, s.disk.Holds target.file n bytes → s'.disk.Holds target.file n bytes)
    (htmp : ∀ n bytes, s.disk.Holds target.tmp n bytes →
      s'.disk.Holds target.tmp n bytes) : Faithful env target v s' p := by
  cases p with
  | reading =>
    obtain ⟨bytes, hheld, hrest⟩ := h
    exact ⟨bytes, hfile _ _ hheld, hrest⟩
  | writing =>
    obtain ⟨hv, text, htext, hheld⟩ := h
    exact ⟨hv, text, htext, htmp _ _ hheld⟩
  | written =>
    obtain ⟨hv, text, tmp, htext, hheld⟩ := h
    exact ⟨hv, text, tmp, htext, htmp _ _ hheld⟩
  | _ => exact h

theorem holds_access (hd : handleReload env target size s p = some d) (h : Faithful env target v s p) {q : ρ}
    {n : Inode ρ} {bytes : List UInt8} (hq : s.disk.Holds q n bytes) (hne : q ≠ target.tmp) :
    d.1.disk.Holds q n bytes ∨
      q = target.file ∧ d.1.disk = s.disk.replace target.tmp target.file ∧ ∃ newCfg, p = .written newCfg := by
  cases p with
  | entered =>
    obtain ⟨_, -, rfl⟩ := Option.map_eq_some_iff.mp hd
    exact .inl hq
  | reading file content =>
    dsimp only [handleReload] at hd
    split at hd
    · obtain ⟨_, -, rfl⟩ := Option.map_eq_some_iff.mp hd
      exact .inl hq
    · obtain rfl := Option.some.inj hd
      exact .inl hq
  | loaded newCfg =>
    obtain rfl := Option.some.inj hd
    exact .inl (hq.openWrite hne)
  | writing newCfg tmp offset =>
    obtain ⟨-, _, -, hheld⟩ := h
    obtain ⟨text, -, rfl⟩ := Option.map_eq_some_iff.mp hd
    dsimp only
    split
    · exact .inl hq
    · exact .inl (hq.write hheld.1 hne _ _ _)
  | written newCfg =>
    dsimp only [handleReload] at hd
    split at hd
    · obtain rfl := Option.some.inj hd
      by_cases hfile : q = target.file
      · exact .inr ⟨hfile, rfl, newCfg, rfl⟩
      · exact .inl (hq.replace hne hfile)
    · cases hd
  | replaced newCfg =>
    obtain rfl := Option.some.inj hd
    exact .inl hq
  | returned => cases hd

theorem config_access (hd : handleReload env target size s p = some d) :
    d.1.config = s.config ∨ p = .replaced d.1.config := by
  cases p with
  | entered =>
    obtain ⟨_, -, rfl⟩ := Option.map_eq_some_iff.mp hd
    exact .inl rfl
  | reading file content =>
    dsimp only [handleReload] at hd
    split at hd
    · obtain ⟨_, -, rfl⟩ := Option.map_eq_some_iff.mp hd
      exact .inl rfl
    · obtain rfl := Option.some.inj hd
      exact .inl rfl
  | loaded newCfg =>
    obtain rfl := Option.some.inj hd
    exact .inl rfl
  | writing newCfg tmp offset =>
    obtain ⟨_, -, rfl⟩ := Option.map_eq_some_iff.mp hd
    dsimp only
    split <;> exact .inl rfl
  | written newCfg =>
    dsimp only [handleReload] at hd
    split at hd
    · obtain rfl := Option.some.inj hd
      exact .inl rfl
    · cases hd
  | replaced newCfg =>
    obtain rfl := Option.some.inj hd
    exact .inr rfl
  | returned => cases hd

theorem Faithful.own (h : Faithful env target v s p) (hd : handleReload env target size s p = some d)
    {file : Inode ρ} {content : List UInt8} (hfile : s.disk.Holds target.file file content)
    (hload : jsonLoad env content = .ok v) : Faithful env target v d.1 d.2 := by
  cases p with
  | entered =>
    obtain ⟨n, hn, rfl⟩ := Option.map_eq_some_iff.mp hd
    obtain rfl := Option.some.inj (hfile.1.symm.trans hn)
    exact ⟨content, hfile, List.nil_prefix, hload⟩
  | reading n got =>
    obtain ⟨bytes, hheld, ⟨rest, rfl⟩, hbytes⟩ := h
    dsimp only [handleReload] at hd
    rw [hheld.2, List.drop_left] at hd
    split at hd
    · next hrest =>
      obtain ⟨newCfg, hnew, rfl⟩ := Option.map_eq_some_iff.mp hd
      rw [hrest, List.append_nil] at hbytes
      rw [hbytes] at hnew
      exact (Option.some.inj hnew).symm
    · obtain rfl := Option.some.inj hd
      refine ⟨got ++ rest, hheld, ?_, hbytes⟩
      exact (List.prefix_append_right_inj got).mpr (List.take_prefix _ _)
  | loaded newCfg =>
    obtain rfl := Option.some.inj hd
    obtain ⟨text, htext⟩ := (TrinityKernel.loadable_of_jsonLoad hload).exists_dump env.floatRepr 0
    refine ⟨h, text, htext, ?_⟩
    rw [List.take_zero]
    exact Disk.holds_openWrite s.disk _
  | writing newCfg tmp offset =>
    obtain ⟨rfl, text, htext, hheld⟩ := h
    dsimp only [handleReload] at hd
    rw [htext] at hd
    obtain rfl := Option.some.inj hd
    dsimp only
    split
    · next hrest =>
      refine ⟨rfl, text, tmp, htext, ?_⟩
      rwa [List.take_of_length_le (List.drop_eq_nil_iff.mp hrest)] at hheld
    · next hrest =>
      refine ⟨rfl, text, htext, ?_⟩
      have hoffset : ((ascii text).take offset).length = offset := by
        rw [List.length_take]
        rw [List.drop_eq_nil_iff] at hrest
        omega
      have hpiece := List.prefix_iff_eq_take.mp (List.take_prefix size ((ascii text).drop offset))
      have hend := patch_end 0 ((ascii text).take offset) (((ascii text).drop offset).take size)
      rw [hoffset] at hend
      rw [List.take_add, ← hpiece, ← hend]
      exact hheld.write_self _ _ _
  | written newCfg =>
    dsimp only [handleReload] at hd
    split at hd
    · obtain rfl := Option.some.inj hd
      exact h.1
    · cases hd
  | replaced newCfg =>
    obtain rfl := Option.some.inj hd
    trivial
  | returned => cases hd

theorem Faithful.access {c : Configured ρ × ReloadPosition ρ} (hc : Access env target c d) (h : Faithful env target v c.1 c.2)
    {file : Inode ρ} {content : List UInt8} (hfile : c.1.disk.Holds target.file file content)
    (hload : jsonLoad env content = .ok v) : Faithful env target v d.1 d.2 := by
  cases hc with
  | next size hd => exact h.own hd hfile hload
  | fail => trivial

variable {ι : Type} {targets : ι → Target ρ} {Overlap : ι → ι → Prop} {value : ρ → Value} {config : Value}

structure Invariant (env : Environment) (targets : ι → Target ρ) (value : ρ → Value) (config : Value) (s : Configured ρ) :
    Prop where
  loads : ∀ i, ∃ n content, s.disk.Holds (targets i).file n content ∧ jsonLoad env content = .ok (value (targets i).file)
  config : s.config = config ∨ ∃ i, s.config = value (targets i).file

theorem Invariant.access (hf : RepresentsFloats env.floatRepr) (hnames : ∀ i j, (targets j).file ≠ (targets i).tmp)
    {i : ι} {c : Configured ρ × ReloadPosition ρ} (hc : Access env (targets i) c d)
    (hinv : Invariant env targets value config c.1) (h : Faithful env (targets i) (value (targets i).file) c.1 c.2) :
    Invariant env targets value config d.1 := by
  cases hc with
  | fail => exact hinv
  | @next s p _ size hd =>
    constructor
    · intro j
      obtain ⟨n, content, hheld, hload⟩ := hinv.loads j
      rcases holds_access hd h hheld (hnames i j) with hkept | ⟨hfile, hdisk, newCfg, rfl⟩
      · exact ⟨n, content, hkept, hload⟩
      · obtain ⟨-, text, tmp, htext, htmp⟩ := h
        refine ⟨tmp, ascii text, ?_, ?_⟩
        · rw [hdisk, hfile]
          exact htmp.replace_self _
        · rw [hfile] at hload ⊢
          exact jsonLoad_dump hf hload htext
    · rcases config_access hd with hsame | rfl
      · rw [hsame]
        exact hinv.config
      · exact .inr ⟨i, h⟩

def Apart (a b : Target ρ) : Prop := a.file ≠ b.file ∧ a.tmp ≠ b.tmp

theorem Faithful.others (hnames : ∀ i j, (targets j).file ≠ (targets i).tmp) {i j : ι}
    (hapart : Apart (targets i) (targets j)) {c : Configured ρ × ReloadPosition ρ} (hc : Access env (targets i) c d)
    (h : Faithful env (targets i) v c.1 c.2) {w : Value} {q : ReloadPosition ρ}
    (hq : Faithful env (targets j) w c.1 q) : Faithful env (targets j) w d.1 q := by
  obtain ⟨hne, htmp⟩ := hapart
  cases hc with
  | fail => exact hq
  | next size hd =>
    refine hq.mono (fun n bytes hheld => ?_) fun n bytes hheld => ?_
    · exact (holds_access hd h hheld (hnames i j)).resolve_right fun hfile => hne hfile.1.symm
    · exact (holds_access hd h hheld htmp.symm).resolve_right fun hfile => hnames j i hfile.1.symm

def outline (hf : RepresentsFloats env.floatRepr) (hnames : ∀ i j, (targets j).file ≠ (targets i).tmp)
    (hfiles : ∀ i j, Overlap i j → i ≠ j → Apart (targets i) (targets j)) (value : ρ → Value) (config : Value) :
    (procedure env targets).Outline Overlap where
  invariant := Invariant env targets value config
  assertion i s p := Faithful env (targets i) (value (targets i).file) s p
  quiet _ := True
  own {i c d} hc hinv h := by
    obtain ⟨n, content, hheld, hload⟩ := hinv.loads i
    exact ⟨hinv.access hf hnames hc h, h.access hc hheld hload⟩
  others {i j c d q} hc hne hoverlap hinv h hq := by
    by_cases hunder : q.underWay = true
    · refine Faithful.others hnames ?_ hc h hq
      rcases hoverlap hunder with hij | hji
      · exact hfiles i j hij hne
      · exact (hfiles j i hji hne.symm).imp Ne.symm Ne.symm
    · cases q with
      | entered => trivial
      | returned => trivial
      | _ => exact absurd rfl hunder
  returns _ _ _ _ := trivial

end calls

section runs

variable {env : Environment} {target : Target ρ} {s : Configured ρ} {v : Value} {file : Inode ρ} {content : List UInt8}
  {text : List Char}

theorem reaches_loaded (h : s.disk.Holds target.file file content) (hload : jsonLoad env content = .ok v) :
    ReflTransGen (Access env target) (s, .entered) (s, .loaded v) := by
  have hopened : Access env target (s, .entered) (s, .reading file []) := by
    refine .next 0 ?_
    rw [handleReload, h.1]
    rfl
  have hread : Access env target (s, .reading file []) (s, .reading file content) := by
    refine .next content.length ?_
    simp [handleReload, h.2, ne_nil_of_jsonLoad hload]
  have hloaded : Access env target (s, .reading file content) (s, .loaded v) := by
    refine .next 0 ?_
    simp [handleReload, h.2, hload, Except.toOption]
  exact ((ReflTransGen.single hopened).tail hread).tail hloaded

theorem reaches_opened (s : Configured ρ) (v : Value) : ReflTransGen (Access env target) (s, .loaded v)
    (s.opened target, .writing v (s.disk.openWrite target.tmp).2 0) :=
  .single (.next 0 rfl)

theorem holds_filled (h : s.disk.Holds target.tmp file []) (text : List Char) :
    (s.filled file text).disk.Holds target.tmp file (ascii text) := by
  have hend := patch_end 0 [] (ascii text)
  rw [List.nil_append, List.length_nil] at hend
  exact hend ▸ h.write_self 0 0 (ascii text)

theorem reaches_written (htext : dumpIndented env.floatRepr 0 v = .ok text) (hne : ascii text ≠ []) :
    ReflTransGen (Access env target) (s, .writing v file 0) (s.filled file text, .written v) := by
  have hwrite : Access env target (s, .writing v file 0) (s.filled file text, .writing v file (ascii text).length) := by
    refine .next (ascii text).length ?_
    simp [handleReload, htext, hne, Configured.filled, Except.toOption]
  have hclose : Access env target (s.filled file text, .writing v file (ascii text).length)
      (s.filled file text, .written v) := by
    refine .next 0 ?_
    simp [handleReload, htext, Except.toOption]
  exact (ReflTransGen.single hwrite).tail hclose

theorem access_replaced (h : s.disk.Holds target.tmp file content) : Access env target (s, .written v)
    ({ s with disk := s.disk.replace target.tmp target.file }, .replaced v) := by
  refine .next 0 ?_
  rw [handleReload, h.1]
  rfl

theorem handleReload_alone (hf : RepresentsFloats env.floatRepr) {self : TrinityKernel} {w : World} (actor : String)
    {configPath : Value} {cfgFile : Str} {s : Configured Str} (hkernel : w.server.kernel = some self)
    (hpath : self.cfgFile configPath = .str cfgFile) (hfault : ∀ step, env.fileFault step = none)
    (hfiles : s.disk.files = w.files) (hcontent : w.files cfgFile = some content)
    (hload : jsonLoad env content = .ok v) :
    ∃ res t s', self.handleReload env actor configPath w = (.returned res, t) ∧
      ReflTransGen (Access env (.of id cfgFile)) (s, .entered) (s', .returned) ∧
      TrinityKernel.configOf t = some s'.config ∧
      ∀ q, q ≠ temporary (.str cfgFile) → s'.disk.files q = t.files q := by
  have hrun := @TrinityKernel.triple_handleReload env w self actor configPath w ⟨rfl, rfl⟩
  generalize self.handleReload env actor configPath w = run at *
  obtain ⟨res | e | _, t⟩ := run
  case raised | running => exact hrun.elim
  obtain ⟨b, -, heffect⟩ := hrun
  rw [hpath] at heffect
  have hcommits : TrinityKernel.Commits env w (.str cfgFile) cfgFile v := ⟨rfl, ⟨content, hcontent, hload⟩, hfault⟩
  cases heffect with
  | refused h => exact absurd hcommits (h.notCommits _ _)
  | @committed _ path v' h =>
    obtain ⟨rfl, rfl⟩ := h.commits.unique hcommits
    obtain ⟨text, htext, hwritten⟩ := h.written
    obtain ⟨n, hheld⟩ := Disk.exists_holds ((congrFun hfiles path).trans hcontent)
    let target : Target Str := .of id path
    let file := (s.disk.openWrite target.tmp).2
    have hopened : (s.opened target).disk.Holds target.tmp file [] := Disk.holds_openWrite s.disk target.tmp
    have hfilled := holds_filled hopened text
    let s' : Configured Str := ⟨((s.opened target).filled file text).disk.replace target.tmp path, v'⟩
    have hreturned : Access env target ({ s' with config := s.config }, .replaced v') (s', .returned) := .next 0 rfl
    have hne := ne_nil_of_jsonLoad (jsonLoad_dump hf hload htext)
    refine ⟨res, t, s', rfl, ?_, h.config_eq hkernel, fun q hq => ?_⟩
    · exact ((((reaches_loaded hheld hload).trans (reaches_opened s v')).trans (reaches_written htext hne)).tail
        (access_replaced hfilled)).tail hreturned
    · by_cases hfile : q = path
      · subst hfile
        rw [(hfilled.replace_self q).files, hwritten]
      · rw [h.files q hfile hq, ← hfiles]
        refine (Disk.files_replace _ hq hfile).trans ?_
        exact (hopened.files_write hq _ _ _).trans (Disk.files_openWrite _ hq)

end runs

section safety

variable {ι : Type} {env : Environment} {targets : ι → Target ρ} {resolve : Str → ρ} {file : ι → Str}
  {Overlap : ι → ι → Prop} {files : ρ → Option (List UInt8)} {config : Value} {value : ρ → Value}

structure Safe (depth : ℕ) (resolve : Str → ρ) (file : ι → Str) (value : ρ → Value) (config : Value)
    (s : Configured ρ) : Prop where
  restarts : ∀ i, Restarts depth (file i) (s.disk.files ∘ resolve) (value (resolve (file i)))
  config : s.config = config ∨ ∃ i, s.config = value (resolve (file i))

omit [DecidableEq ρ] in
theorem not_restarts_empty {depth : ℕ} {cfgFile : Str} {v : Value} (h : files (resolve cfgFile) = some []) :
    ¬Restarts depth cfgFile (files ∘ resolve) v := by
  rw [restarts_iff]
  rintro ⟨content, hcontent, hload⟩
  obtain rfl := Option.some.inj (h.symm.trans hcontent)
  exact ne_nil_of_jsonLoad hload rfl

omit [DecidableEq ρ] in
theorem Invariant.safe {s : Configured ρ} (h : Invariant env (fun i => .of resolve (file i)) value config s) :
    Safe env.depth resolve file value config s := by
  refine ⟨fun i => restarts_iff.mpr ?_, h.config⟩
  obtain ⟨n, content, hheld, hload⟩ := h.loads i
  refine ⟨content, hheld.files, ?_⟩
  rw [← jsonLoad_eq rfl]
  exact hload

omit [DecidableEq ρ] in
theorem exists_holds_of_restarts {cfgFile : Str} {v : Value} (h : Restarts env.depth cfgFile (files ∘ resolve) v) :
    ∃ n content, (Disk.ofFiles files).Holds (resolve cfgFile) n content ∧ jsonLoad env content = .ok v := by
  obtain ⟨content, hcontent, hload⟩ := restarts_iff.mp h
  rw [Function.comp_apply, ← Disk.files_ofFiles files] at hcontent
  obtain ⟨n, hheld⟩ := Disk.exists_holds hcontent
  refine ⟨n, content, hheld, ?_⟩
  rw [jsonLoad_eq rfl]
  exact hload

variable [DecidableEq ι]

abbrev Reachable (env : Environment) (targets : ι → Target ρ) (Overlap : ι → ι → Prop)
    (files : ρ → Option (List UInt8)) (config : Value) :
    Procedure.Calls ι (Configured ρ) (ReloadPosition ρ) → Prop :=
  (procedure env targets).Reachable Overlap ⟨.ofFiles files, config⟩ .entered

theorem exists_emptied {s : Configured ρ} {m : Procedure.Calls ι (Configured ρ) (ReloadPosition ρ)} {i : ι}
    (hm : (procedure env targets).Reachable Overlap s .entered m) (hposition : m.position i = .entered)
    (hoverlap : ∀ j, j ≠ i → (procedure env targets).UnderWay m j → Overlap i j) {n : Inode ρ} {content : List UInt8}
    {v : Value} (hheld : m.shared.disk.Holds (targets i).file n content) (hload : jsonLoad env content = .ok v) :
    (procedure env targets).Reachable Overlap s .entered (m.moveTo i (m.shared.opened (targets i),
      .writing v (m.shared.disk.openWrite (targets i).tmp).2 0)) := by
  refine hm.run hoverlap ?_
  rw [hposition]
  exact (reaches_loaded hheld hload).trans (reaches_opened _ v)

theorem exists_torn (hf : RepresentsFloats env.floatRepr) (config : Value) {i j : ι} {n : Inode ρ}
    {content : List UInt8} {v : Value} (hheld : (Disk.ofFiles files).Holds (targets j).file n content)
    (hload : jsonLoad env content = .ok v) (hoverlap : Overlap i j) (hne : i ≠ j)
    (hfile : (targets i).file = (targets j).file) (htmp : (targets i).tmp = (targets j).tmp)
    (hown : (targets j).file ≠ (targets j).tmp) :
    ∃ m, Reachable env targets Overlap files config m ∧ m.shared.disk.files (targets i).file = some [] := by
  obtain ⟨text, htext⟩ := (TrinityKernel.loadable_of_jsonLoad hload).exists_dump env.floatRepr 0
  let m₀ : Procedure.Calls ι (Configured ρ) (ReloadPosition ρ) := ⟨⟨.ofFiles files, config⟩, fun _ => .entered⟩
  let tmp := (targets j).tmp
  have hnew : (m₀.shared.opened (targets j)).disk.Holds tmp (m₀.shared.disk.openWrite tmp).2 [] :=
    Disk.holds_openWrite m₀.shared.disk tmp
  let s₁ := (m₀.shared.opened (targets j)).filled (m₀.shared.disk.openWrite tmp).2 text
  -- Call `j` goes as far as to have written and closed the temporary file.
  let m₁ := m₀.moveTo j (s₁, .written v)
  have h₁ : Reachable env targets Overlap files config m₁ := by
    refine Procedure.Reachable.run .refl (fun k _ hk => ?_) ?_
    · cases hk
    · exact ((reaches_loaded hheld hload).trans (reaches_opened _ _)).trans
        (reaches_written htext (ne_nil_of_jsonLoad (jsonLoad_dump hf hload htext)))
  -- Call `i` reads the config file, which is still the old one, and empties the temporary one.
  have hother (k : ι) (hk : k ≠ j) : m₁.position k = .entered := m₀.moveTo_of_ne hk _
  have hold : m₁.shared.disk.Holds (targets i).file n content := by
    rw [hfile]
    exact (hheld.openWrite hown).write hnew.1 hown _ _ _
  let m₂ := m₁.moveTo i (m₁.shared.opened (targets i),
    .writing v (m₁.shared.disk.openWrite (targets i).tmp).2 0)
  have h₂ : Reachable env targets Overlap files config m₂ := by
    refine exists_emptied h₁ (hother i hne) (fun k _ hk => ?_) hold hload
    by_cases hkj : k = j
    · exact hkj ▸ hoverlap
    · rw [Procedure.UnderWay, hother k hkj] at hk
      cases hk
  have hposition : m₂.position j = .written v := (m₁.moveTo_of_ne hne.symm _).trans (m₀.moveTo_self j _)
  have hempty : m₂.shared.disk.Holds tmp (m₁.shared.disk.openWrite tmp).2 [] := by
    have hopened : m₂.shared.disk = (m₁.shared.disk.openWrite tmp).1 := by
      change (m₁.shared.disk.openWrite (targets i).tmp).1 = _
      rw [htmp]
    rw [hopened]
    exact Disk.holds_openWrite m₁.shared.disk tmp
  have hunder : (procedure env targets).UnderWay m₂ j := by
    rw [Procedure.UnderWay, hposition]
    rfl
  have hreplace : (procedure env targets).Access j (m₂.shared, m₂.position j)
      ({ m₂.shared with disk := m₂.shared.disk.replace tmp (targets j).file }, .replaced v) := by
    rw [hposition]
    exact access_replaced hempty
  refine ⟨_, h₂.resume hunder hreplace, ?_⟩
  rw [hfile]
  exact (hempty.replace_self (targets j).file).files

/-- What is assumed of paths is that two of one file have temporary paths of one file. -/
theorem reloads_safe_iff (env : Environment) (hf : RepresentsFloats env.floatRepr) (resolve : Str → ρ)
    (file : ι → Str) (Overlap : ι → ι → Prop) (files : ρ → Option (List UInt8)) (config : Value) (value : ρ → Value)
    (hresolve : ∀ i j, resolve (temporary (.str (file i))) = resolve (temporary (.str (file j))) ↔
      resolve (file i) = resolve (file j))
    (hstart : ∀ i, Restarts env.depth (file i) (files ∘ resolve) (value (resolve (file i)))) :
    ((∀ m, Reachable env (fun i => .of resolve (file i)) Overlap files config m →
        Safe env.depth resolve file value config m.shared) ↔
      (∀ i j, resolve (file j) ≠ resolve (temporary (.str (file i)))) ∧
        ∀ i j, Overlap i j → i ≠ j → resolve (file i) ≠ resolve (file j)) ∧
    ∀ i j, Overlap i j → i ≠ j → resolve (file i) = resolve (file j) →
      ∃ m, Reachable env (fun i => .of resolve (file i)) Overlap files config m ∧
        m.shared.disk.files (resolve (file i)) = some [] := by
  have hemptied (i j : ι) (hname : resolve (file j) = resolve (temporary (.str (file i)))) :
      ∃ m, Reachable env (fun i => .of resolve (file i)) Overlap files config m ∧
        m.shared.disk.files (resolve (file j)) = some [] := by
    obtain ⟨n, content, hheld, hload⟩ := exists_holds_of_restarts (hstart i)
    let m₀ : Procedure.Calls ι (Configured ρ) (ReloadPosition ρ) := ⟨⟨.ofFiles files, config⟩, fun _ => .entered⟩
    refine ⟨_, exists_emptied (m := m₀) .refl rfl (fun k _ hk => by cases hk) hheld hload, ?_⟩
    rw [hname]
    exact (Disk.holds_openWrite m₀.shared.disk _).files
  have htorn (i j : ι) (hoverlap : Overlap i j) (hne : i ≠ j) (hfile : resolve (file i) = resolve (file j)) :
      ∃ m, Reachable env (fun i => .of resolve (file i)) Overlap files config m ∧
        m.shared.disk.files (resolve (file i)) = some [] := by
    by_cases hown : resolve (file j) = resolve (temporary (.str (file j)))
    · rw [hfile]
      exact hemptied j j hown
    · obtain ⟨n, content, hheld, hload⟩ := exists_holds_of_restarts (hstart j)
      have htmp : (Target.of resolve (file i)).tmp = (Target.of resolve (file j)).tmp := (hresolve i j).mpr hfile
      exact exists_torn hf config hheld hload hoverlap hne hfile htmp hown
  refine ⟨?_, htorn⟩
  constructor
  · intro h
    constructor
    · intro i j hname
      obtain ⟨m, hm, hempty⟩ := hemptied i j hname
      exact not_restarts_empty hempty ((h m hm).restarts j)
    · intro i j hoverlap hne hfile
      obtain ⟨m, hm, hempty⟩ := htorn i j hoverlap hne hfile
      exact not_restarts_empty hempty ((h m hm).restarts i)
  · rintro ⟨hnames, hfiles⟩ m hm
    have hapart (i j : ι) (hij : Overlap i j) (hne : i ≠ j) :
        Apart (Target.of resolve (file i)) (Target.of resolve (file j)) :=
      ⟨hfiles i j hij hne, fun htmp => hfiles i j hij hne ((hresolve i j).mp htmp)⟩
    let O : (procedure env fun i => .of resolve (file i)).Outline Overlap := outline hf hnames hapart value config
    have hall : O.Holds m := by
      refine O.holds_of_reachable rfl ?_ ?_ ?_ hm
      · exact ⟨fun i => exists_holds_of_restarts (hstart i), .inl rfl⟩
      · exact fun _ => trivial
      · trivial
    exact Invariant.safe hall.invariant

def plainPath (path : Str) : Str := if str "./" <+: path then path.drop 2 else path

theorem reloads_safe_iff_torn :
    let env := { Environment.idle with floatRepr := literalOf }
    let config := .dict [(str "a", .list [.int 1, .text "b"])]
    let files := fun path => if path = str "cfg" then some (ascii TrinityKernel.Sample.object) else none
    let file := fun dotted : Bool => if dotted then str "./cfg" else str "cfg"
    (¬∀ m, Reachable env (fun i => .of plainPath (file i)) (fun _ _ => True) files config m →
        Safe env.depth plainPath file (fun _ => config) config m.shared) ∧
      ∃ m, Reachable env (fun i => .of plainPath (file i)) (fun _ _ => True) files config m ∧
        m.shared.disk.files (str "cfg") = some [] := by
  intro env config files file
  have hresolve : ∀ i j, plainPath (temporary (.str (file i))) = plainPath (temporary (.str (file j))) ↔
      plainPath (file i) = plainPath (file j) := by decide
  have hstart : ∀ i, Restarts env.depth (file i) (files ∘ plainPath) config := by
    intro i
    cases i <;> exact restarts_iff.mpr ⟨_, rfl, rfl⟩
  have hiff := reloads_safe_iff env representsFloats_literalOf plainPath file (fun _ _ => True) files config
    (fun _ => config) hresolve hstart
  refine ⟨fun h => ?_, hiff.2 false true trivial Bool.false_ne_true (by decide)⟩
  exact (hiff.1.mp h).2 false true trivial Bool.false_ne_true (by decide)

end safety

end Reloads

end TrinityOS.Service
