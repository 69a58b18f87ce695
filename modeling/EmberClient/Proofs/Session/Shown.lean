import EmberClient.Proofs.Session.Notices

/-!
# What the editor is made to do

What the editor is made to show or do comes of strides only: of a question that is put before it,
or of one that is answered by telling it.

> `shown_of_stride`: a step adds to what is shown just what its stride shows.
-/

namespace EmberClient.Session

variable {s s' : Session} {a : Action} {task : Nat}

/-- What the editor is made to show or do when a question is put or replied. -/
def Question.shows? : Question → Option EditorEvent
  | .prompt options => some (.prompt options)
  | .openFile path => some (.opened path)
  | .editorCommand name arguments => some (.command name arguments)
  | .status item text => some (.status item text)
  | .showError text => some (.error text)
  | _ => none

/-- What the editor is made to show or do by a stride: when a question is put, or else when it
is replied. -/
def Stride.shows? : Stride → Option EditorEvent
  | .puts q => q.shows?
  | .told e => if mustPut e.question then none else e.question.shows?
  | .runs .. => none

/-- A question that is put outside is shown as it is put. -/
theorem shown_of_put {q : Question} (outward : mustPut q = true) :
    (s.put task q).shown = s.shown ++ q.shows?.toList := by
  cases q with
  | prompt | openFile | editorCommand => rfl
  | lock | launch | terminate => exact (List.append_nil _).symm
  | _ => contradiction

/-- Any other question is shown with its reply. -/
theorem shown_of_reply {q : Question} {r : q.Reply} {s₁ : Session}
    (replied : s.reply task q = some (s₁, r)) :
    s₁.shown = s.shown ++ (Stride.told ⟨q, r⟩).shows?.toList := by
  cases q with
  | status | showError =>
    obtain ⟨rfl, -⟩ := Prod.mk.inj (Option.some.inj replied)
    rfl
  | _ => exact (reply_shown replied (by simp) (by simp)).trans (List.append_nil _).symm

/-- So going on with a task shows what its stride shows. -/
theorem shown_of_advance (hstep : s.step (.advance task) = some s') :
    s'.shown = s.shown ++
      ((s.stride? (.advance task)).bind fun (_, stride) => stride.shows?).toList := by
  obtain ⟨t, stride, -, took, advances⟩ := advances_of_step hstep
  rw [took]
  cases advances with
  | runs question => exact (List.append_nil _).symm
  | puts question outward unput => exact shown_of_put outward
  | @told q next r s₁ question plain ready replied =>
    show s₁.shown = _
    exact shown_of_reply replied

/-- **A step adds to what is shown just what its stride shows.** -/
theorem shown_of_stride (hstep : s.step a = some s') :
    s'.shown = s.shown ++ ((s.stride? a).bind fun (_, stride) => stride.shows?).toList := by
  cases stepped_of_step hstep with
  | begins | cancels | shows => exact (List.append_nil _).symm
  | runs | puts | replied => exact shown_of_advance hstep
  | brought here question ready brings =>
    -- the editor was made to show or do it when the question was put
    rw [stride?_of_brings brings (question?_of here question)]
    cases brings <;> exact (List.append_nil _).symm
  | @acts server c c' act events =>
    exact (shown_takes server events _).trans (List.append_nil _).symm

/-- The reply about what the editor shows is what it shows. -/
theorem view_of_stride {view : EditorView} (hstep : s.step a = some s')
    (took : s.stride? a = some (task, .told ⟨.view, view⟩)) : view = s.view := by
  obtain ⟨-, -, s₁, -, replied, -⟩ := reply_of_told hstep (told?_of_stride took) rfl (by simp)
  exact (Prod.mk.inj (Option.some.inj replied)).2.symm

end EmberClient.Session
