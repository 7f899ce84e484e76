import NitroCloud.CsLibuv.ServerTask

/-!
# The order of the callbacks

`HandleRead` takes every callback for the whole response to the command that was sent last, and
releases the task.  So a second callback, with the rest of a response or with no bytes, finds no
current result; and a response that overtakes the write callback of its request lets the next
command reuse the write request that libuv still holds.
-/

namespace NitroCloud.CsLibuv.ServerTask

open Bytes Machine

/-! ## The current result -/

/-- libuv can call `HandleRead` with the bytes received. -/
def Readable (task : ServerTask) (received : Bytes) : Prop :=
  task.reading = true ∧ task.closed = false ∧ received.length ≤ suggestedSize

/-- The branch of `HandleRead` for a successful read is reached only with a current result. -/
def ReadWithResult (_ : List Event) (task : ServerTask) (e : Event) : Prop :=
  ∀ received, e = .read received → task.Readable received → task.m_currentCommandResult ≠ none

/-- Whether a command is the last thing that happened to a task, write callbacks apart, after the
event, from what it was before. -/
def Event.sentLast (sent : Bool) : Event → Bool
  | .send _ => true
  | .write => sent
  | .read _ => false
  | .readError => false

/-- Whether the last event, write callbacks apart, was a `SendCommad`. -/
def sentLast (es : List Event) : Bool := es.foldl Event.sentLast false

/-- A successful read callback is the first one since a `SendCommad`. -/
def ReadAfterSend (before : List Event) (task : ServerTask) (e : Event) : Prop :=
  ∀ received, e = .read received → task.Readable received → sentLast before = true

/-- What a step does to the current result. -/
theorem isBusy_step {task task' : ServerTask} {e : Event} (h : step task e = some task') :
    task'.isBusy = e.sentLast task.isBusy := by
  cases e with
  | send command =>
    simp only [step] at h
    split_ifs at h
    cases h
    rfl
  | write =>
    simp only [step] at h
    split_ifs at h
    cases h
    rfl
  | read received =>
    simp only [step] at h
    split_ifs at h
    obtain ⟨result, -, rfl⟩ := Option.map_eq_some_iff.1 h
    rfl
  | readError =>
    simp only [step] at h
    split_ifs at h
    cases h
    rfl

/-- A task is busy exactly when the last event, write callbacks apart, was a `SendCommad`. -/
theorem isBusy_eq_sentLast {before : List Event} {task task' : ServerTask} {e : Event}
    (hbusy : task.isBusy = sentLast before) (h : step task e = some task') :
    task'.isBusy = sentLast (before ++ [e]) := by
  rw [isBusy_step h, hbusy, sentLast, sentLast, List.foldl_append, List.foldl_cons, List.foldl_nil]

/-- In every run of a task: `HandleRead` uses no missing current result, if and only if each
successful read callback, whatever it delivers, is the first one since a `SendCommad`. -/
theorem read_with_result_iff (es : List Event) :
    Along step new ReadWithResult es ↔ Along step new ReadAfterSend es := by
  refine along_congr (fun before task => task.isBusy = sentLast before) rfl
    (fun _ _ _ _ hbusy h => isBusy_eq_sentLast hbusy h) ?_
  intro before task e hbusy
  have hresult : task.m_currentCommandResult ≠ none ↔ sentLast before = true := by
    rw [← hbusy, isBusy, Option.isSome_iff_ne_none]
  simp only [ReadWithResult, ReadAfterSend, hresult]

/-- A task that was given a command and whose first read callback brought no bytes. -/
def afterEmptyRead (c : Count) : ServerTask where
  m_bufferSend := c.message
  m_bufferRecv := store (allocate [] suggestedSize) []
  m_currentCommandResult := none
  m_collection := [⟨c.message, cStr (store (allocate [] suggestedSize) [])⟩]
  writing := 0
  reading := true
  closed := false
  delivered := [[]]

/-- A callback without bytes in front of the response makes `HandleRead` use a missing result. -/
theorem read_without_result :
    ¬ Along step new ReadWithResult
      [.send ⟨7⟩, .write, .read [], .read (ascii "Row[7] = <error>")] := by
  intro h
  have hs : run step new [.send ⟨7⟩, .write, .read []] = some (afterEmptyRead ⟨7⟩) := rfl
  exact h [.send ⟨7⟩, .write, .read []] (.read (ascii "Row[7] = <error>")) [] _ rfl hs _ rfl
    ⟨rfl, rfl, by decide⟩ rfl

/-! ## The write request -/

/-- The steps of a task whose reads do not fail. -/
def responseStep (task : ServerTask) : Event → Option ServerTask
  | .readError => none
  | e => task.step e

/-- `SendCommad` is called only when no write callback is outstanding. -/
def SendAfterWrite (_ : List Event) (task : ServerTask) (e : Event) : Prop :=
  ∀ command, e = .send command → task.isBusy = false → task.writing = 0

/-- A read callback comes only when no write callback is outstanding. -/
def ReadAfterWrite (_ : List Event) (task : ServerTask) (e : Event) : Prop :=
  ∀ received, e = .read received → task.responseStep e ≠ none → task.writing = 0

/-- With the read callbacks in order, a task that is not busy awaits no write callback. -/
theorem writing_step {before : List Event} {task task' : ServerTask} {e : Event}
    (hidle : task.isBusy = false → task.writing = 0) (horder : ReadAfterWrite before task e)
    (h : responseStep task e = some task') : task'.isBusy = false → task'.writing = 0 := by
  cases e with
  | send command =>
    simp only [responseStep, step] at h
    split_ifs at h
    cases h
    intro hbusy
    cases hbusy
  | write =>
    simp only [responseStep, step] at h
    split_ifs at h with hwriting
    cases h
    intro hbusy
    exact absurd (hidle hbusy) hwriting
  | read received =>
    have hzero := horder received rfl (by rw [h]; exact Option.some_ne_none _)
    simp only [responseStep, step] at h
    split_ifs at h
    obtain ⟨result, -, rfl⟩ := Option.map_eq_some_iff.1 h
    exact fun _ => hzero
  | readError => cases h

/-- In every order of callbacks: no `SendCommad`, whenever one is possible, is called while a write
callback is outstanding, if and only if each read callback comes after the write callback of the
request that it answers. -/
theorem send_after_write_iff (es : List Event) :
    (∀ before after command, es = before ++ after →
        Along responseStep new SendAfterWrite (before ++ [.send command])) ↔
      Along responseStep new ReadAfterWrite es := by
  constructor
  · intro h before e after task hes hs received he hallowed
    obtain ⟨task', htask'⟩ := Option.ne_none_iff_exists'.1 hallowed
    have hrun : run responseStep new (before ++ [e]) = some task' := by
      rw [run_concat, hs, Option.bind_some, htask']
    have hsend := (h (before ++ [e]) after ⟨0⟩ (by rw [hes]; simp)).last hrun ⟨0⟩ rfl
    subst he
    simp only [responseStep, step] at htask'
    split_ifs at htask'
    obtain ⟨result, -, rfl⟩ := Option.map_eq_some_iff.1 htask'
    exact hsend rfl
  · intro h before after command hes
    have hbefore : Along responseStep new ReadAfterWrite (before ++ [.send command]) := by
      apply (hes ▸ h).of_append.concat
      intro task _ received he
      cases he
    exact Along.imp (fun _ task => task.isBusy = false → task.writing = 0) (fun _ => rfl)
      (fun _ _ _ _ hidle horder h => writing_step hidle horder h)
      (fun _ _ _ hidle _ _ _ hbusy => hidle hbusy) hbefore

/-- Three commands; the response to the second one comes before its write callback. -/
def overtakingRead : List Event :=
  [.send ⟨7⟩, .write, .read (ascii "Row[7] = <error>"), .send ⟨8⟩,
    .read (ascii "Row[8] = <error>"), .send ⟨9⟩]

/-- A task that was given two commands, with the write callback of the second one outstanding. -/
def afterOvertakingRead : ServerTask :=
  let bufferRecv := store (allocate [] suggestedSize) (ascii "Row[7] = <error>")
  let bufferRecv' := store (allocate bufferRecv suggestedSize) (ascii "Row[8] = <error>")
  { m_bufferSend := Count.message ⟨8⟩
    m_bufferRecv := bufferRecv'
    m_currentCommandResult := none
    m_collection := [⟨Count.message ⟨7⟩, cStr bufferRecv⟩, ⟨Count.message ⟨8⟩, cStr bufferRecv'⟩]
    writing := 1
    reading := true
    closed := false
    delivered := [ascii "Row[7] = <error>", ascii "Row[8] = <error>"] }

/-- The third command reuses the write request of the second one. -/
theorem send_before_write : ¬ Along responseStep new SendAfterWrite overtakingRead := by
  intro h
  have hs : run responseStep new [.send ⟨7⟩, .write, .read (ascii "Row[7] = <error>"), .send ⟨8⟩,
      .read (ascii "Row[8] = <error>")] = some afterOvertakingRead := rfl
  have hzero := h _ (.send ⟨9⟩) [] _ rfl hs ⟨9⟩ rfl rfl
  cases hzero

end NitroCloud.CsLibuv.ServerTask
