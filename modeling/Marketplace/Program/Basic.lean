import Marketplace.Program.Call
set_option autoImplicit false

/-!
# Programs

A program makes calls one after the other, each chosen by the answers before it.  What the calls do
is said elsewhere, so one program runs on a store in memory, on one that fails at chosen calls, and
step by step among other programs.
-/

namespace Marketplace

/-- A program with a result of the type. -/
inductive Program (α : Type) : Type
  | done (a : α)
  | call (c : Call) (next : c.Reply → Program α)

namespace Program

variable {α β γ σ : Type}

/-- Goes on with a second program that is chosen by the result of the first. -/
def bind : Program α → (α → Program β) → Program β
  | done a, f => f a
  | call c next, f => call c fun r => (next r).bind f

instance : Monad Program where
  pure := done
  bind := bind

/-- Makes one call. -/
def ask (c : Call) : Program c.Reply := call c done

theorem bind_done (p : Program α) : p.bind done = p := by
  induction p with
  | done a => rfl
  | call c next ih => simp only [bind, ih]

theorem bind_assoc (p : Program α) (f : α → Program β) (g : β → Program γ) :
    (p.bind f).bind g = p.bind fun a => (f a).bind g := by
  induction p with
  | done a => rfl
  | call c next ih => simp only [bind, ih]

instance : LawfulMonad Program :=
  LawfulMonad.mk' Program (fun p => bind_done p) (fun _ _ => rfl) fun p f g => bind_assoc p f g

/-- What answers calls: the answer and the state afterwards, or `none` for a call that has to
wait. -/
abbrev Handler (σ : Type) := σ → (c : Call) → Option (c.Reply × σ)

/-- Runs a program alone to its end; `none` if a call has to wait, for then it waits for ever. -/
def run (h : Handler σ) : Program α → σ → Option (α × σ)
  | done a, s => some (a, s)
  | call c next, s =>
    match h s c with
    | none => none
    | some (r, s) => (next r).run h s

end Program

end Marketplace
