/-!
# Shared values

A value that is read and written only in sections. Any number of reading sections may be open at
once, but a writing section must be the only one. A section that cannot be opened is refused, and
the value is then left as it is; the sections around it are closed as usual.

`read` and `write` open a section in which others may be asked for. Most sections hold no other:
`look` and `use` are those. To a value that is `idle` they are plain application (`look_idle`,
`use_idle`).
-/

namespace SoftTimer

/-- Why a section was refused: by `write`, or by `read`. -/
inductive AccessConflict where
  /-- A writing section was asked for inside another section. -/
  | inUse
  /-- A reading section was asked for inside a writing one. -/
  | beingWritten
deriving DecidableEq, Repr

/-- A shared value, with the sections that are open on it. -/
@[ext]
structure Shared (α : Type) where
  /-- The value. -/
  value : α
  /-- How many reading sections are open. -/
  readers : Nat := 0
  /-- Whether a writing section is open. -/
  writing : Bool := false
deriving DecidableEq, Repr

namespace Shared

variable {α β : Type}

/-- `s.read body` opens a reading section, in which `body` may open further sections. -/
def read (body : Shared α → Except AccessConflict β × Shared α) (s : Shared α) :
    Except AccessConflict β × Shared α :=
  if s.writing then
    (.error .beingWritten, s)
  else
    let (result, s) := body { s with readers := s.readers + 1 }
    (result, { s with readers := s.readers - 1 })

/-- `s.write body` opens a writing section, in which `body` may ask for further sections. -/
def write (body : Shared α → Except AccessConflict β × Shared α) (s : Shared α) :
    Except AccessConflict β × Shared α :=
  if s.writing || 0 < s.readers then
    (.error .inUse, s)
  else
    let (result, s) := body { s with writing := true }
    (result, { s with writing := false })

/-- `s.look f` looks at the value in a reading section that holds no other section. -/
def look (f : α → β) (s : Shared α) : Except AccessConflict β × Shared α :=
  s.read fun s => (.ok (f s.value), s)

/-- `s.use act` acts on the value in a writing section that holds no other section. -/
def use (act : α → β × α) (s : Shared α) : Except AccessConflict β × Shared α :=
  s.write fun s => (.ok (act s.value).1, { s with value := (act s.value).2 })

/-- `s.get` reads the value. -/
def get (s : Shared α) : Except AccessConflict α × Shared α := s.look id

/-- `s.modify f` changes the value by `f`, and gives the new one. -/
def modify (f : α → α) (s : Shared α) : Except AccessConflict α × Shared α :=
  s.use fun value => (f value, f value)

/-- `andThen done next` goes on after a section with `next`, unless the section was refused. -/
def andThen {γ : Type} (done : Except AccessConflict β × Shared α)
    (next : β → Shared α → Except AccessConflict γ × Shared α) :
    Except AccessConflict γ × Shared α :=
  match done with
  | (.ok result, s) => next result s
  | (.error conflict, s) => (.error conflict, s)

/-- `andThen` hands on what a section gave. -/
@[simp] theorem andThen_ok {γ : Type} (result : β) (s : Shared α)
    (next : β → Shared α → Except AccessConflict γ × Shared α) :
    andThen (.ok result, s) next = next result s := rfl

/-- `andThen` stops at a section that was refused. -/
@[simp] theorem andThen_error {γ : Type} (conflict : AccessConflict) (s : Shared α)
    (next : β → Shared α → Except AccessConflict γ × Shared α) :
    andThen (.error conflict, s) next = (.error conflict, s) := rfl

/-- `idle value` is a shared value on which no section is open. -/
def idle (value : α) : Shared α := { value := value }

/-- `look` is refused exactly while the value is written, and leaves it as it is. -/
theorem look_eq (f : α → β) (s : Shared α) :
    s.look f = (if s.writing then .error .beingWritten else .ok (f s.value), s) := by
  unfold look read
  split <;> rfl

/-- `use` is refused exactly while any section is open, and acts on the value otherwise. -/
theorem use_eq (act : α → β × α) (s : Shared α) :
    s.use act = if s.writing || 0 < s.readers then (.error .inUse, s)
      else (.ok (act s.value).1, { s with value := (act s.value).2 }) := by
  unfold use write
  split
  · rfl
  · next hidle =>
    obtain ⟨value, readers, writing⟩ := s
    cases writing with
    | true => exact absurd rfl hidle
    | false => rfl

/-- On an `idle` value `look` is plain application. -/
@[simp] theorem look_idle (f : α → β) (value : α) :
    (idle value).look f = (.ok (f value), idle value) := rfl

/-- On an `idle` value `use` is plain application. -/
@[simp] theorem use_idle (act : α → β × α) (value : α) :
    (idle value).use act = (.ok (act value).1, idle (act value).2) := rfl

end Shared

end SoftTimer
