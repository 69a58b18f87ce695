/-!
# Programs that ask

A `Program` is a computation that stops at questions. Each question has a type of
replies, and the program goes on with the reply it is given; who replies, and
what happens between two questions, is not part of it. So one and the same
program can be played by a scheduler, interleaved with others, or followed along
any replies at all in a proof.
-/

namespace EmberClient

/-- A computation of an `α` that asks questions of `Q` on its way. -/
inductive Program (Q : Type) (Reply : Q → Type) (α : Type) where
  /-- The result. -/
  | done (a : α)
  /-- A question, and how the computation goes on with the reply. -/
  | ask (q : Q) (next : Reply q → Program Q Reply α)

namespace Program

variable {Q : Type} {Reply : Q → Type} {α β γ : Type}

/-- Goes on with the result of a program. -/
def bind : Program Q Reply α → (α → Program Q Reply β) → Program Q Reply β
  | .done a, f => f a
  | .ask q next, f => .ask q fun r => (next r).bind f

instance : Monad (Program Q Reply) where
  pure := .done
  bind := bind

/-- Asks one question and returns the reply. -/
def question (q : Q) : Program Q Reply (Reply q) := .ask q .done

@[simp]
theorem done_bind (a : α) (f : α → Program Q Reply β) : bind (.done a) f = f a := rfl

@[simp]
theorem ask_bind (q : Q) (next : Reply q → Program Q Reply α) (f : α → Program Q Reply β) :
    bind (.ask q next) f = .ask q fun r => bind (next r) f := rfl

theorem bind_done (p : Program Q Reply α) : bind p .done = p := by
  induction p with
  | done a => rfl
  | ask q next ih => simp [ih]

theorem bind_bind (p : Program Q Reply α) (f : α → Program Q Reply β)
    (g : β → Program Q Reply γ) : bind (bind p f) g = bind p fun a => bind (f a) g := by
  induction p with
  | done a => rfl
  | ask q next ih => simp [ih]

end Program

end EmberClient
