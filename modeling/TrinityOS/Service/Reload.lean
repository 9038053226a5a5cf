import TrinityOS.Service.JsonRoundTrip
import TrinityOS.Service.Kernel

namespace TrinityOS.Service

open Program

theorem loads_nil (depth : ℕ) : loads depth [] = .error (.valueError "Expecting value") := by
  cases depth <;> rfl

theorem decodeUpTo_ascii {s : List Char} (h : ∀ c ∈ s, c.toNat < 128) {n : ℕ} (hn : s.length ≤ n) :
    decodeUpTo none n (TrinityKernel.ascii s) = some s := by
  induction s generalizing n with
  | nil => cases n <;> rfl
  | cons c s ih =>
    obtain ⟨hc, hs⟩ := List.forall_mem_cons.mp h
    obtain ⟨n, rfl⟩ : ∃ m, n = m + 1 := ⟨n - 1, by rw [List.length_cons] at hn; omega⟩
    have hvalue : c.toNat.toUInt8.toNat = c.toNat := Nat.mod_eq_of_lt (by omega)
    have hlead : c.toNat.toUInt8 < 0x80 := by
      rw [UInt8.lt_iff_toNat_lt, hvalue]
      exact hc
    have hrest := ih hs (n := n) (by rw [List.length_cons] at hn; omega)
    simp only [TrinityKernel.ascii, List.map_cons, decodeUpTo, decodeFirst, if_pos hlead, hvalue] at hrest ⊢
    rw [Option.map_some, Char.ofNat_toNat]
    simp [hrest]

namespace TrinityKernel

theorem decodeStrict_ascii {s : List Char} (h : ∀ c ∈ s, c.toNat < 128) : decodeStrict (ascii s) = some s :=
  decodeUpTo_ascii h (by rw [ascii, List.length_map])

variable {env : Environment} {self : TrinityKernel} {w : World} {file : Value}

def content (env : Environment) (w : World) : Value → Option (List UInt8)
  | .str path => w.files path
  | .int n => env.descriptor n
  | .bool b => env.descriptor b.toNat
  | _ => none

theorem loadable_of_jsonLoad {bytes : List UInt8} {v : Value} (h : jsonLoad env bytes = .ok v) : Loadable env.depth v := by
  unfold jsonLoad at h
  split at h
  · exact .of_loads h
  · cases h

structure Commits (env : Environment) (w : World) (file : Value) (path : Str) (v : Value) : Prop where
  isPath : file = .str path
  parsed : ∃ bytes, w.files path = some bytes ∧ jsonLoad env bytes = .ok v
  noFault : ∀ step, env.fileFault step = none

theorem Commits.unique {path path' : Str} {v v' : Value} (h : Commits env w file path v)
    (h' : Commits env w file path' v') : path = path' ∧ v = v' := by
  obtain ⟨rfl, ⟨bytes, hbytes, hv⟩, -⟩ := h
  obtain ⟨hpath, ⟨bytes', hbytes', hv'⟩, -⟩ := h'
  obtain rfl := Value.str.inj hpath
  rw [hbytes] at hbytes'
  obtain rfl := Option.some.inj hbytes'
  rw [hv] at hv'
  exact ⟨rfl, Except.ok.inj hv'⟩

structure Refused (env : Environment) (w : World) (file : Value) (t : World) : Prop where
  server : t.server = w.server
  files : ∀ path, path ≠ temporary file → t.files path = w.files path
  notCommits : ∀ path v, ¬Commits env w file path v

structure Committed (env : Environment) (w : World) (file : Value) (path : Str) (v : Value) (t : World) : Prop where
  commits : Commits env w file path v
  server : t.server = { w.server with kernel := w.server.kernel.map fun k => { k with config := v } }
  written : ∃ text, dumpIndented env.floatRepr 0 v = .ok text ∧ t.files path = some (ascii text)
  files : ∀ other, other ≠ path → other ≠ temporary file → t.files other = w.files other

def SameStores (w t : World) : Prop := t.server = w.server ∧ t.files = w.files

theorem SameStores.refused {t : World} (h : SameStores w t) (hnot : ∀ path v, ¬Commits env w file path v) :
    Refused env w file t :=
  ⟨h.1, fun _ _ => by rw [h.2], hnot⟩

theorem SameStores.content_eq {t : World} (h : SameStores w t) (file : Value) : content env t file = content env w file := by
  cases file with
  | str path => exact congrFun h.2 path
  | _ => rfl

theorem of_elim_eq_ok {α : Type} {o : Option α} {e : PyError} {a : α}
    (h : o.elim (Except.error e) Except.ok = .ok a) : o = some a := by
  cases o with
  | none => cases h
  | some b =>
    obtain rfl := Except.ok.inj h
    rfl

theorem triple_guardStep {I : World → Prop} (hI : ∀ t, I t → t.server = w.server ∧
      ∀ path, path ≠ temporary file → t.files path = w.files path) (step : FileStep) :
    Triple I (guardStep env step) (fun _ t => I t ∧ env.fileFault step = none)
      (fun _ t => Refused env w file t) fun _ => False := by
  unfold guardStep
  cases h : env.fileFault step with
  | some e =>
    refine triple_raise fun t ht => ⟨(hI t ht).1, (hI t ht).2, fun path v hc => ?_⟩
    rw [hc.noFault step] at h
    cases h
  | none => exact triple_pure fun _ ht => ⟨ht, rfl⟩

theorem triple_openRead (w : World) (file : Value) :
    Triple (SameStores w) (openRead env file)
      (fun bytes t => (SameStores w t ∧ content env w file = some bytes) ∧
        env.fileFault .openConfig = none ∧ env.fileFault .readConfig = none)
      (fun _ t => Refused env w file t) fun _ => False := by
  have hkeeps (t : World) (h : SameStores w t) :
      t.server = w.server ∧ ∀ path, path ≠ temporary file → t.files path = w.files path :=
    ⟨h.1, fun path _ => congrFun h.2 path⟩
  unfold openRead
  refine (triple_guardStep hkeeps .openConfig).bind fun _ => Triple.assume fun hopen => ?_
  apply triple_read_bind
  rintro t ht
  refine Triple.bind (R := fun bytes t => SameStores w t ∧ content env w file = some bytes) ?_ fun bytes => ?_
  · apply triple_ofExcept
    · rintro bytes hbytes _ rfl
      refine ⟨ht, ?_⟩
      rw [← ht.content_eq]
      cases file with
      | str path => exact of_elim_eq_ok hbytes
      | int n => exact of_elim_eq_ok hbytes
      | bool b => exact of_elim_eq_ok hbytes
      | _ => cases hbytes
    · rintro e he _ rfl
      refine ht.refused ?_
      rintro path v ⟨rfl, ⟨bytes, hbytes, -⟩, -⟩
      rw [← ht.2] at hbytes
      simp only [openFile, hbytes] at he
      cases he
  · apply Triple.bind (R := fun _ t => SameStores w t ∧ content env w file = some bytes)
    · exact triple_modify fun t ht => ht
    intro _
    refine (triple_guardStep (fun t ht => hkeeps t ht.1) .readConfig).bind fun _ => Triple.assume fun hread => ?_
    exact triple_pure fun t ht => ⟨ht, hopen, hread⟩

structure Writing (w : World) (file : Value) (t : World) : Prop where
  server : t.server = w.server
  files : ∃ bytes, t.files = Function.update w.files (temporary file) bytes

theorem Writing.keeps {t : World} (h : Writing w file t) :
    t.server = w.server ∧ ∀ path, path ≠ temporary file → t.files path = w.files path := by
  obtain ⟨hserver, bytes, hfiles⟩ := h
  refine ⟨hserver, fun path hne => ?_⟩
  rw [hfiles, Function.update_of_ne hne]

structure Written (w : World) (file : Value) (text : List Char) (t : World) : Prop where
  server : t.server = w.server
  files : t.files = Function.update w.files (temporary file) (some (ascii text))

theorem triple_jsonDump {v : Value} {text : List Char} (htext : dumpIndented env.floatRepr 0 v = .ok text) :
    Triple (Writing w file) (jsonDump env v (temporary file))
      (fun _ t => Written w file text t ∧ env.fileFault .writeTemporary = none)
      (fun _ t => Refused env w file t) fun _ => False := by
  unfold jsonDump
  rw [htext, ofExcept_ok_bind]
  cases hfault : env.fileFault .writeTemporary with
  | some e =>
    refine Triple.bind (R := fun _ => Writing w file) ?_ fun _ => ?_
    · apply triple_modify
      rintro t ⟨hserver, bytes, hfiles⟩
      exact ⟨hserver, _, by rw [hfiles, Function.update_idem]⟩
    · refine triple_raise fun t ht => ⟨ht.keeps.1, ht.keeps.2, fun path v hc => ?_⟩
      rw [hc.noFault] at hfault
      cases hfault
  | none =>
    apply triple_modify
    rintro t ⟨hserver, bytes, hfiles⟩
    exact ⟨⟨hserver, by rw [hfiles, Function.update_idem]⟩, rfl⟩

theorem ne_temporary (path : Str) : path ≠ temporary (.str path) := by
  intro h
  have hlength := congrArg List.length h
  rw [temporary, List.length_append] at hlength
  have htmp : (str ".tmp").length = 4 := rfl
  omega

structure Replaced (w : World) (file : Value) (path : Str) (text : List Char) (t : World) : Prop where
  server : t.server = w.server
  written : t.files path = some (ascii text)
  files : ∀ other, other ≠ path → other ≠ temporary file → t.files other = w.files other

theorem triple_replaceFile (text : List Char) :
    Triple (Written w file text) (replaceFile env (temporary file) file)
      (fun _ t => ∃ path, Replaced w file path text t ∧ file = .str path ∧ env.fileFault .replace = none)
      (fun _ t => Refused env w file t) fun _ => False := by
  have hkeeps (t : World) (h : Written w file text t) := (Writing.mk h.server ⟨_, h.files⟩).keeps
  unfold replaceFile
  refine (triple_guardStep hkeeps .replace).bind fun _ => Triple.assume fun hfault => ?_
  cases file with
  | str path =>
    apply triple_modify
    rintro t ⟨hserver, hfiles⟩
    refine ⟨path, ⟨hserver, ?_, fun other hpath htmp => ?_⟩, rfl, hfault⟩
    · simp only [Function.update_self, hfiles]
    · simp only [Function.update_of_ne hpath, Function.update_of_ne htmp, hfiles]
  | _ =>
    refine triple_raise fun t ht => ⟨(hkeeps t ht).1, (hkeeps t ht).2, ?_⟩
    rintro path v ⟨⟨⟩, -, -⟩

inductive ReloadEffect (env : Environment) (w : World) (file : Value) : Bool → World → Prop
  | refused {t : World} (h : Refused env w file t) : ReloadEffect env w file false t
  | committed {t : World} {path : Str} {v : Value} (h : Committed env w file path v t) :
      ReloadEffect env w file v.isDict t

theorem triple_reload (self : TrinityKernel) (configPath : Value) :
    Triple (SameStores w) (reload env self configPath)
      (fun _ t => ReloadEffect env w (self.cfgFile configPath) true t)
      (fun _ t => ReloadEffect env w (self.cfgFile configPath) false t) fun _ => False := by
  unfold reload install
  generalize self.cfgFile configPath = file
  have hor {α : Type} {I : World → Prop} {p : Handler α} {R : α → World → Prop}
      (h : Triple I p R (fun _ t => Refused env w file t) fun _ => False) :
      Triple I p R (fun _ t => ReloadEffect env w file false t) fun _ => False :=
    h.mono (fun _ h => h) (fun _ _ h => h) (fun _ _ h => .refused h) fun _ h => h
  refine (hor (triple_openRead w file)).bind fun bytes => ?_
  refine Triple.assume fun ⟨hopen, hread⟩ => Triple.assume fun hcontent => ?_
  refine Triple.bind (R := fun v t => SameStores w t ∧ jsonLoad env bytes = .ok v) ?_ fun v => ?_
  · apply triple_ofExcept
    · exact fun v hv t ht => ⟨ht, hv⟩
    · refine fun e he t ht => .refused (ht.refused ?_)
      rintro path v ⟨rfl, ⟨bytes', hbytes, hv⟩, -⟩
      obtain rfl := Option.some.inj (hcontent.symm.trans hbytes)
      rw [hv] at he
      cases he
  refine Triple.assume fun hv => ?_
  obtain ⟨text, htext⟩ := (loadable_of_jsonLoad hv).exists_dump env.floatRepr 0
  refine (hor (triple_guardStep (fun t ht => ⟨ht.1, fun path _ => congrFun ht.2 path⟩) _)).bind fun _ => ?_
  refine Triple.assume fun htmp => Triple.bind (R := fun _ => Writing w file) ?_ fun _ => ?_
  · apply triple_modify
    exact fun t ht => ⟨ht.1, _, by rw [ht.2]⟩
  refine (hor (triple_jsonDump htext)).bind fun _ => Triple.assume fun hwrite => ?_
  refine (hor (triple_replaceFile text)).bind fun _ => triple_exists fun path => ?_
  refine Triple.assume fun ⟨hpath, hreplace⟩ => ?_
  have hcommits : Commits env w file path v := by
    subst hpath
    refine ⟨rfl, ⟨bytes, hcontent, hv⟩, fun step => ?_⟩
    cases step <;> assumption
  refine Triple.bind (R := fun _ => Committed env w file path v) ?_ fun _ => ?_
  · apply triple_modify
    exact fun t ht => ⟨hcommits, by rw [ht.server], ⟨text, htext, ht.written⟩, ht.files⟩
  · cases v with
    | dict items => exact triple_pure fun t ht => .committed ht
    | _ => exact triple_raise fun t ht => .committed ht

theorem ReloadEffect.of_same {b : Bool} {t t' : World} (h : ReloadEffect env w file b t) (hs : SameStores t t') :
    ReloadEffect env w file b t' := by
  cases h with
  | refused h => exact .refused ⟨hs.1.trans h.server, fun path hne => hs.2 ▸ h.files path hne, h.notCommits⟩
  | committed h =>
    obtain ⟨text, htext, hwritten⟩ := h.written
    exact .committed ⟨h.commits, hs.1.trans h.server, ⟨text, htext, hs.2 ▸ hwritten⟩, hs.2 ▸ h.files⟩

theorem triple_handleReload (self : TrinityKernel) (actor : String) (configPath : Value) :
    Triple (SameStores w) (self.handleReload env actor configPath)
      (fun res t => ∃ b, res.get "success" = .ok (.bool b) ∧ ReloadEffect env w (self.cfgFile configPath) b t)
      (fun _ _ => False) fun _ => False := by
  have hemit (a : Action) : Triple (SameStores w) (emit a) (fun _ => SameStores w) (fun _ _ => False) fun _ => False :=
    triple_modify fun _ h => h
  unfold handleReload
  refine (hemit _).bind fun _ => (hemit _).bind fun _ => ?_
  apply Triple.bind (R := fun outcome t => ReloadEffect env w (self.cfgFile configPath) outcome.isOk t)
  · exact (triple_reload self configPath).attempt
  intro outcome
  cases outcome with
  | ok keys =>
    refine Triple.bind (R := fun _ => ReloadEffect env w (self.cfgFile configPath) true) ?_ fun _ => ?_
    · exact triple_modify fun t ht => ht.of_same ⟨rfl, rfl⟩
    · exact triple_pure fun t ht => ⟨true, rfl, ht⟩
  | error e =>
    refine Triple.bind (R := fun _ => ReloadEffect env w (self.cfgFile configPath) false) ?_ fun _ => ?_
    · exact triple_modify fun t ht => ht.of_same ⟨rfl, rfl⟩
    · exact triple_pure fun t ht => ⟨false, rfl, ht⟩

def configOf (w : World) : Option Value := w.server.kernel.map (·.config)

structure Atomic (env : Environment) (w : World) (file : Value) (success : Bool) (t : World) : Prop where
  failed : success = false → configOf t = configOf w ∧ content env t file = content env w file
  succeeded : success = true → ∃ before after v, content env w file = some before ∧ jsonLoad env before = .ok v ∧
    configOf t = some v ∧ content env t file = some after ∧ jsonLoad env after = .ok v

theorem Refused.atomic {t : World} (h : Refused env w file t) : Atomic env w file false t := by
  refine ⟨fun _ => ⟨?_, ?_⟩, nofun⟩
  · rw [configOf, h.server, configOf]
  · cases file with
    | str path => exact h.files path (ne_temporary path)
    | _ => rfl

theorem Committed.config_eq {path : Str} {v : Value} {t : World} (h : Committed env w file path v t)
    (hkernel : w.server.kernel = some self) : configOf t = some v := by
  rw [configOf, h.server, hkernel]
  rfl

theorem Committed.jsonLoad_written (hf : RepresentsFloats env.floatRepr) {path : Str} {v : Value} {t : World}
    (h : Committed env w file path v t) : ∃ bytes, t.files path = some bytes ∧ jsonLoad env bytes = .ok v := by
  obtain ⟨before, -, hv⟩ := h.commits.parsed
  obtain ⟨text, htext, hwritten⟩ := h.written
  obtain ⟨hloads, hascii⟩ := (loadable_of_jsonLoad hv).loads_dump hf htext
  refine ⟨ascii text, hwritten, ?_⟩
  rw [jsonLoad, decodeStrict_ascii hascii]
  exact hloads

theorem Committed.atomic_dict (hf : RepresentsFloats env.floatRepr) (hkernel : w.server.kernel = some self)
    {path : Str} {v : Value} {t : World} (h : Committed env w file path v t) : Atomic env w file true t := by
  refine ⟨nofun, fun _ => ?_⟩
  obtain ⟨before, hbefore, hv⟩ := h.commits.parsed
  obtain ⟨after, hafter, hread⟩ := h.jsonLoad_written hf
  obtain rfl := h.commits.isPath
  exact ⟨before, after, v, hbefore, hv, h.config_eq hkernel, hafter, hread⟩

def Settled (env : Environment) (self : TrinityKernel) (w : World) (path : Str) (v : Value) : Prop :=
  self.config = v ∧ ∃ text, dumpIndented env.floatRepr 0 v = .ok text ∧ w.files path = some (ascii text)

theorem Committed.atomic_iff_settled (hkernel : w.server.kernel = some self) {path : Str} {v : Value} {t : World}
    (h : Committed env w file path v t) : Atomic env w file false t ↔ Settled env self w path v := by
  obtain ⟨text, htext, hwritten⟩ := h.written
  have hbefore : configOf w = some self.config := by rw [configOf, hkernel]; rfl
  have hafter := h.config_eq hkernel
  obtain rfl := h.commits.isPath
  constructor
  · intro hatomic
    obtain ⟨hconfig, hcontent⟩ := hatomic.failed rfl
    rw [hafter, hbefore] at hconfig
    exact ⟨(Option.some.inj hconfig).symm, text, htext, hcontent.symm.trans hwritten⟩
  · rintro ⟨hconfig, text', htext', hfile⟩
    obtain rfl := Except.ok.inj (htext.symm.trans htext')
    refine ⟨fun _ => ⟨?_, ?_⟩, nofun⟩
    · rw [hafter, hbefore, hconfig]
    · exact hwritten.trans hfile.symm

theorem ReloadEffect.atomic_iff (hf : RepresentsFloats env.floatRepr) (hkernel : w.server.kernel = some self)
    {b : Bool} {t : World} (h : ReloadEffect env w file b t) :
    Atomic env w file b t ↔ ∀ path v, Commits env w file path v → v.isDict ∨ Settled env self w path v := by
  cases h with
  | refused h => exact iff_of_true h.atomic fun path v hc => absurd hc (h.notCommits path v)
  | @committed _ path v h =>
    cases hdict : v.isDict with
    | true =>
      refine iff_of_true (h.atomic_dict hf hkernel) fun path' v' hc => .inl ?_
      rwa [← (h.commits.unique hc).2]
    | false =>
      refine (h.atomic_iff_settled hkernel).trans ⟨fun hsettled path' v' hc => .inr ?_, fun hall => ?_⟩
      · obtain ⟨rfl, rfl⟩ := h.commits.unique hc
        exact hsettled
      · apply (hall path v h.commits).resolve_left
        rw [hdict]
        exact Bool.false_ne_true

theorem reload_atomic_iff (hf : RepresentsFloats env.floatRepr) (hkernel : w.server.kernel = some self)
    (actor : String) (configPath : Value) :
    (∃ res t b, self.handleReload env actor configPath w = (.returned res, t) ∧ res.get "success" = .ok (.bool b) ∧
        Atomic env w (self.cfgFile configPath) b t) ↔
      ∀ path v, Commits env w (self.cfgFile configPath) path v → v.isDict ∨ Settled env self w path v := by
  have hrun := @triple_handleReload env w self actor configPath w ⟨rfl, rfl⟩
  generalize self.handleReload env actor configPath w = run at *
  obtain ⟨outcome | e | _, t⟩ := run
  · obtain ⟨b, hb, heffect⟩ := hrun
    rw [← heffect.atomic_iff hf hkernel]
    constructor
    · rintro ⟨res, t', b', hrun, hb', hatomic⟩
      cases hrun
      obtain rfl : b = b' := Value.bool.inj (Except.ok.inj (hb.symm.trans hb'))
      exact hatomic
    · exact fun hatomic => ⟨outcome, t, b, rfl, hb, hatomic⟩
  · exact hrun.elim
  · exact hrun.elim

namespace Sample

noncomputable def environment : Environment := { Environment.idle with floatRepr := literalOf }

def kernel : TrinityKernel where
  configFile := str "cfg"
  config := .dict []
  ready := true
  apiServer := true

def world (text : List Char) : World :=
  .start { kernel := some kernel, ready := some true } fun path => if path = str "cfg" then some (ascii text) else none

def object : List Char := "\x7b\"a\": [1, \"b\"]\x7d".toList

end Sample

theorem reload_atomic_object : ∃ res t b,
    Sample.kernel.handleReload Sample.environment "ops" .none (Sample.world Sample.object) = (.returned res, t) ∧
      res.get "success" = .ok (.bool b) ∧
      Atomic Sample.environment (Sample.world Sample.object) (Sample.kernel.cfgFile .none) b t := by
  apply (reload_atomic_iff representsFloats_literalOf rfl "ops" .none).mpr
  rintro path v ⟨hpath, ⟨bytes, hbytes, hv⟩, -⟩
  obtain rfl := Value.str.inj hpath
  obtain rfl := Option.some.inj hbytes
  obtain rfl := Except.ok.inj hv
  exact .inl rfl

theorem reload_list_torn : ¬∃ res t b,
    Sample.kernel.handleReload Sample.environment "ops" .none (Sample.world ['[', '1', ']']) = (.returned res, t) ∧
      res.get "success" = .ok (.bool b) ∧
      Atomic Sample.environment (Sample.world ['[', '1', ']']) (Sample.kernel.cfgFile .none) b t := by
  rintro ⟨res, t, b, hrun, hb, hatomic⟩
  obtain ⟨hres, ht⟩ := Prod.mk.inj hrun
  obtain rfl := Outcome.returned.inj hres
  obtain rfl : false = b := Value.bool.inj (Except.ok.inj hb)
  obtain ⟨hconfig, -⟩ := hatomic.failed rfl
  rw [← ht] at hconfig
  cases Option.some.inj hconfig

end TrinityKernel

end TrinityOS.Service
