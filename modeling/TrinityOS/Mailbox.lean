import Mathlib.Data.List.Basic
import Mathlib.Logic.Function.Basic

namespace TrinityOS

inductive MailEvent (ι μ : Type) where
  | send (target : ι) (message : μ)
  | receive (receiver : ι) (message : μ)
  | clear (owner : ι)

namespace Mailbox

variable {ι μ : Type} [DecidableEq ι]

def sent (p : ι) (es : List (MailEvent ι μ)) : List μ :=
  es.foldl (fun messages e =>
    match e with
    | .send q message => if q = p then messages ++ [message] else messages
    | .receive _ _ => messages
    | .clear q => if q = p then [] else messages) []

def received (p : ι) (es : List (MailEvent ι μ)) : List μ :=
  es.foldl (fun messages e =>
    match e with
    | .send _ _ => messages
    | .receive q message => if q = p then messages ++ [message] else messages
    | .clear q => if q = p then [] else messages) []

variable {p q : ι} {es : List (MailEvent ι μ)} {message : μ}

theorem sent_send : sent p (es ++ [.send q message]) = if q = p then sent p es ++ [message] else sent p es := by
  simp only [sent, List.foldl_append, List.foldl_cons, List.foldl_nil]

theorem sent_receive : sent p (es ++ [.receive q message]) = sent p es := by
  simp only [sent, List.foldl_append, List.foldl_cons, List.foldl_nil]

theorem sent_clear : sent p (es ++ [.clear q]) = if q = p then [] else sent p es := by
  simp only [sent, List.foldl_append, List.foldl_cons, List.foldl_nil]

theorem received_send : received p (es ++ [.send q message]) = received p es := by
  simp only [received, List.foldl_append, List.foldl_cons, List.foldl_nil]

theorem received_receive : received p (es ++ [.receive q message]) =
    if q = p then received p es ++ [message] else received p es := by
  simp only [received, List.foldl_append, List.foldl_cons, List.foldl_nil]

theorem received_clear : received p (es ++ [.clear q]) = if q = p then [] else received p es := by
  simp only [received, List.foldl_append, List.foldl_cons, List.foldl_nil]

def Balanced (es : List (MailEvent ι μ)) (boxes : ι → List μ) : Prop :=
  ∀ p, sent p es = received p es ++ boxes p

inductive Step (boxes : ι → List μ) : List (MailEvent ι μ) → (ι → List μ) → Prop
  | stay : Step boxes [] boxes
  | send (q : ι) (message : μ) :
      Step boxes [.send q message] (Function.update boxes q (boxes q ++ [message]))
  | receive (q : ι) (message : μ) (rest : List μ) (h : boxes q = message :: rest) :
      Step boxes [.receive q message] (Function.update boxes q rest)
  | clear (q : ι) : Step boxes [.clear q] (Function.update boxes q [])

theorem Step.sends {boxes boxes' : ι → List μ} (hs : Step boxes [.send q message] boxes') :
    boxes' = Function.update boxes q (boxes q ++ [message]) := by
  cases hs
  rfl

theorem Step.grows {boxes boxes' : ι → List μ} {new : List (MailEvent ι μ)} (hs : Step boxes new boxes')
    (hreceive : ∀ message, .receive p message ∉ new) (hclear : .clear p ∉ new) : boxes p <+: boxes' p := by
  cases hs with
  | stay => exact List.prefix_refl _
  | send q message =>
    rw [Function.update_apply]
    split
    · next hq =>
      rw [hq]
      exact List.prefix_append _ _
    · exact List.prefix_refl _
  | receive q message rest =>
    have hq : p ≠ q := by
      rintro rfl
      exact hreceive message (List.mem_singleton_self _)
    exact ⟨[], by rw [List.append_nil, Function.update_of_ne hq]⟩
  | clear q =>
    have hq : p ≠ q := by
      rintro rfl
      exact hclear (List.mem_singleton_self _)
    exact ⟨[], by rw [List.append_nil, Function.update_of_ne hq]⟩

theorem Balanced.nil : Balanced ([] : List (MailEvent ι μ)) (fun _ => []) := fun _ => rfl

theorem Balanced.step {boxes boxes' : ι → List μ} {new : List (MailEvent ι μ)} (h : Balanced es boxes)
    (hs : Step boxes new boxes') : Balanced (es ++ new) boxes' := by
  intro p
  have hp := h p
  cases hs with
  | stay => rwa [List.append_nil]
  | send q message =>
    rw [sent_send, received_send, Function.update_apply]
    by_cases hq : q = p
    · subst hq
      rw [if_pos rfl, if_pos rfl, hp, List.append_assoc]
    · rw [if_neg hq, if_neg (Ne.symm hq), hp]
  | receive q message rest hbox =>
    rw [sent_receive, received_receive, Function.update_apply]
    by_cases hq : q = p
    · subst hq
      rw [if_pos rfl, if_pos rfl, hp, hbox, List.append_assoc]
      rfl
    · rw [if_neg hq, if_neg (Ne.symm hq), hp]
  | clear q =>
    rw [sent_clear, received_clear, Function.update_apply]
    by_cases hq : q = p
    · subst hq
      rw [if_pos rfl, if_pos rfl, if_pos rfl]
      rfl
    · rw [if_neg hq, if_neg hq, if_neg (Ne.symm hq), hp]

end Mailbox

end TrinityOS
