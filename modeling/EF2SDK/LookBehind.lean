import Mathlib.Data.List.Basic

/-!
# Translations that look one element behind

`translate f before l` replaces every element of `l` by a list that depends on it and the element
before it; `before` stands before the first.

A translator that keeps the last element it has seen as its state translates a stream one piece
at a time, and where the stream is cut does not matter (`translate_append`).
-/

set_option autoImplicit false

namespace LookBehind

variable {α β : Type*} {f : α → α → List β} {before : α}

def translate (f : α → α → List β) (before : α) (l : List α) : List β :=
  (List.zip (before :: l) l).flatMap fun x => f x.1 x.2

@[simp] theorem translate_nil : translate f before [] = [] :=
  rfl

@[simp] theorem translate_cons (x : α) (l : List α) :
    translate f before (x :: l) = f before x ++ translate f x l :=
  rfl

theorem translate_append (l l' : List α) :
    translate f before (l ++ l') = translate f before l ++ translate f (l.getLastD before) l' := by
  induction l generalizing before with
  | nil => rfl
  | cons x l ih =>
    rw [List.cons_append, translate_cons, translate_cons, ih, List.getLastD_cons,
      List.append_assoc]

end LookBehind
