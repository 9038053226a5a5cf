import Mathlib.Data.List.Nodup

namespace TrinityOS

inductive RegistryEvent (ι : Type) where
  | issue (id : ι)
  | retire (id : ι)

namespace Registry

variable {ι : Type}

def issued (es : List (RegistryEvent ι)) : List ι :=
  es.filterMap fun
    | .issue id => some id
    | .retire _ => none

def retired (es : List (RegistryEvent ι)) : List ι :=
  es.filterMap fun
    | .issue _ => none
    | .retire id => some id

structure Registered (es : List (RegistryEvent ι)) (live : ι → Prop) : Prop where
  once : (issued es).Nodup
  live_iff : ∀ id, live id ↔ id ∈ issued es ∧ id ∉ retired es

inductive Step (es : List (RegistryEvent ι)) (live : ι → Prop) : List (RegistryEvent ι) → (ι → Prop) → Prop
  | stay : Step es live [] live
  | issue (id : ι) (h : id ∉ issued es) (hunretired : id ∉ retired es) :
      Step es live [.issue id] (fun j => j = id ∨ live j)
  | retire (id : ι) : Step es live [.retire id] (fun j => j ≠ id ∧ live j)

variable {es new : List (RegistryEvent ι)} {live live' : ι → Prop}

theorem issued_append : issued (es ++ new) = issued es ++ issued new := List.filterMap_append

theorem retired_append : retired (es ++ new) = retired es ++ retired new := List.filterMap_append

theorem Registered.nil : Registered ([] : List (RegistryEvent ι)) (fun _ => False) :=
  ⟨List.nodup_nil, fun _ => by simp [issued]⟩

theorem Registered.step (h : Registered es live) (hs : Step es live new live') : Registered (es ++ new) live' := by
  cases hs with
  | stay => rwa [List.append_nil]
  | issue id hnew hunretired =>
    constructor
    · rw [issued_append]
      apply List.nodup_append.mpr
      refine ⟨h.once, List.nodup_singleton id, ?_⟩
      intro a ha b hb
      obtain rfl := List.mem_singleton.mp hb
      rintro rfl
      exact hnew ha
    · intro j
      have hissue : issued [RegistryEvent.issue id] = [id] := rfl
      have hretire : retired [RegistryEvent.issue id] = [] := rfl
      rw [issued_append, retired_append, hissue, hretire, List.append_nil, List.mem_append, List.mem_singleton,
        h.live_iff j]
      constructor
      · rintro (rfl | ⟨hj, hlive⟩)
        · exact ⟨.inr rfl, hunretired⟩
        · exact ⟨.inl hj, hlive⟩
      · rintro ⟨hj | hj, hlive⟩
        · exact .inr ⟨hj, hlive⟩
        · exact .inl hj
  | retire id =>
    have hissue : issued [RegistryEvent.retire id] = [] := rfl
    have hretire : retired [RegistryEvent.retire id] = [id] := rfl
    constructor
    · rw [issued_append, hissue, List.append_nil]
      exact h.once
    · intro j
      rw [issued_append, retired_append, hissue, hretire, List.append_nil, List.mem_append, List.mem_singleton,
        h.live_iff j]
      tauto

end Registry

end TrinityOS
