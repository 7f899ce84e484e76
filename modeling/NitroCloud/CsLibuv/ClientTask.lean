import NitroCloud.Command.Command
import NitroCloud.Foundations.Machine

/-!
# The libuv client task

`ClientTask` of `boost_cloud/include/cs_libuv`.  The task has one write request, `m_streamWriter`,
and one text to send, `m_bufferSend`, and libuv works with both until the callback of a `uv_write`.
What keeps the task from using them again before is only that `HandleRead` stops reading, before it
looks at what it received, and that `HandleWrite` starts it again.

The callbacks of a task run on the loop's thread, so a callback is one step.  libuv calls
`HandleRead` while reading is started and the handle is not closed, with any `nread` and any content
of the receive buffer, and `HandleWrite` once for each `uv_write` that it accepted, with any status.
The data pointers of the handle and of the request are set before the first callback, so the checks
of `thisTask` for null do nothing.
-/

namespace NitroCloud.CsLibuv

open Bytes Machine

/-- A `uv_write` whose callback has not come, with what it was given. -/
structure Write where
  streamWriter : ℕ
  buffer : Bytes
deriving DecidableEq, Repr

/-- `ClientTask`, with what it has under way on its handle. -/
structure ClientTask where
  m_bufferSend : Bytes
  m_bufferRecv : Bytes
  /-- `m_streamWriter`, as the number of times that it was passed to `uv_write`. -/
  m_streamWriter : ℕ
  writing : List Write
  /-- Reading is started. -/
  reading : Bool
  /-- `uv_close` was called. -/
  closed : Bool
deriving DecidableEq, Repr

namespace ClientTask

/-- A task just constructed. -/
def new : ClientTask where
  m_bufferSend := List.replicate MESSAGE_SIZE 0
  m_bufferRecv := []
  m_streamWriter := 0
  writing := []
  reading := false
  closed := false

/-- `uv_read_start`, which does nothing on a closed handle. -/
def readStart (task : ClientTask) : ClientTask :=
  { task with reading := task.reading || !task.closed }

/-- `StartListen`. -/
def startListen (task : ClientTask) : ClientTask := task.readStart

/-- The assignment of the response to `m_bufferSend` and the `uv_write` behind it.  The code does
not look at what `uv_write` returns; one that libuv refuses has no callback. -/
def write (task : ClientTask) (response : Bytes) (accepted : Bool) : ClientTask :=
  { task with
    m_bufferSend := response
    m_streamWriter := task.m_streamWriter + 1
    writing := task.writing ++ if accepted then [⟨task.m_streamWriter + 1, response⟩] else [] }

/-- `HandleRead` with the receive buffer as it is after the read. -/
def handleRead (t : Target) (file : Bytes) (task : ClientTask) (nread : ℤ) (accepted : Bool) :
    ClientTask :=
  if nread < 0 then { task with reading := false, closed := true }
  else
    let task := { task with reading := false }
    match answer t file (cStr task.m_bufferRecv) with
    | none => task
    | some response => task.write response accepted

/-- What libuv can call. -/
inductive Event where
  /-- `HandleRead`, with `base` in the receive buffer; should the task write, `uv_write` is accepted
  or not. -/
  | read (nread : ℤ) (base : Bytes) (accepted : Bool)
  /-- `HandleWrite`. -/
  | write (status : ℤ)
deriving DecidableEq, Repr

def step (t : Target) (file : Bytes) (task : ClientTask) : Event → Option ClientTask
  | .read nread base accepted =>
    if task.reading ∧ ¬ task.closed then
      some (handleRead t file { task with m_bufferRecv := base } nread accepted)
    else none
  | .write _ =>
    if task.writing = [] then none else some { task with writing := task.writing.tail }.readStart

/-! ## Reading and writing alternate -/

/-- At most one `uv_write` is outstanding, and while one is, reading is stopped and the write
request and the text are those that it was given. -/
structure Alternates (task : ClientTask) : Prop where
  one : task.writing.length ≤ 1
  stopped : task.writing ≠ [] → task.reading = false
  kept : ∀ w ∈ task.writing, w = ⟨task.m_streamWriter, task.m_bufferSend⟩

variable {t : Target} {file : Bytes} {task task' : ClientTask} {e : Event}

/-- What a callback does: a read callback comes while reading is started, stops it, and leaves the
writes alone or starts one; a write callback ends a write. -/
theorem step_cases (h : step t file task e = some task') :
    (task.reading = true ∧ task'.reading = false ∧
      (task'.writing = task.writing ∨
        ∃ response accepted, task'.writing = (task.write response accepted).writing ∧
          task'.m_streamWriter = task.m_streamWriter + 1 ∧ task'.m_bufferSend = response)) ∨
    (task.writing ≠ [] ∧ task'.writing = task.writing.tail ∧
      task'.m_streamWriter = task.m_streamWriter ∧ task'.m_bufferSend = task.m_bufferSend) := by
  cases e with
  | read nread base accepted =>
    simp only [step] at h
    split_ifs at h with hallowed
    cases h
    refine .inl ⟨hallowed.1, ?_⟩
    simp only [handleRead]
    split_ifs with hnread
    · exact ⟨rfl, .inl rfl⟩
    · cases answer t file (cStr base) with
      | none => exact ⟨rfl, .inl rfl⟩
      | some response => exact ⟨rfl, .inr ⟨response, accepted, rfl, rfl, rfl⟩⟩
  | write status =>
    simp only [step] at h
    split_ifs at h with hwriting
    cases h
    exact .inr ⟨hwriting, rfl, rfl, rfl⟩

/-- While reading is started no write is outstanding. -/
theorem Alternates.writing_eq_nil (h : task.Alternates) (hreading : task.reading = true) :
    task.writing = [] := by
  by_contra hwriting
  rw [h.stopped hwriting] at hreading
  cases hreading

theorem alternates_of_nil (h : task.writing = []) : task.Alternates := by
  refine ⟨?_, ?_, ?_⟩
  · rw [h]
    exact Nat.zero_le 1
  · exact fun hne => absurd h hne
  · rw [h]
    exact fun w hw => absurd hw (List.not_mem_nil)

/-- A callback keeps the alternation. -/
theorem Alternates.step (halt : task.Alternates) (h : ClientTask.step t file task e = some task') :
    task'.Alternates := by
  rcases step_cases h with ⟨hreading, hstop, hwrites⟩ | ⟨-, htail, -⟩
  · have hnil := halt.writing_eq_nil hreading
    rcases hwrites with hsame | ⟨response, accepted, hwriting, hwriter, hbuffer⟩
    · exact alternates_of_nil (hsame.trans hnil)
    · simp only [write, hnil, List.nil_append] at hwriting
      cases accepted with
      | false => exact alternates_of_nil hwriting
      | true =>
        refine ⟨?_, fun _ => hstop, ?_⟩
        · rw [hwriting]
          exact le_refl 1
        · intro w hw
          rw [hwriting] at hw
          rw [List.mem_singleton.1 hw, hwriter, hbuffer]
  · apply alternates_of_nil
    rw [htail, ← List.length_eq_zero_iff, List.length_tail]
    have hone := halt.one
    omega

/-- The callback that comes while a write is outstanding is the one of that write. -/
theorem Alternates.unchanged (halt : task.Alternates)
    (h : ClientTask.step t file task e = some task') (hwriting : task.writing ≠ []) :
    task'.m_streamWriter = task.m_streamWriter ∧ task'.m_bufferSend = task.m_bufferSend := by
  rcases step_cases h with ⟨hreading, -⟩ | ⟨-, -, hkept⟩
  · exact absurd (halt.writing_eq_nil hreading) hwriting
  · exact hkept

/-- For every sequence of callbacks on a task that listens: at most one `uv_write` is outstanding,
reading is stopped while one is, and no callback that comes then writes over `m_streamWriter` or
`m_bufferSend`, which are still those of the write. -/
theorem alternates_run (t : Target) (file : Bytes) (events : List Event) (task : ClientTask)
    (h : run (step t file) new.startListen events = some task) :
    task.Alternates ∧
      ∀ e task', step t file task e = some task' → task.writing ≠ [] →
        task'.m_streamWriter = task.m_streamWriter ∧ task'.m_bufferSend = task.m_bufferSend := by
  have halt : task.Alternates :=
    invariant_run Alternates (fun _ _ _ halt hstep => halt.step hstep) events
      (alternates_of_nil rfl) h
  exact ⟨halt, fun e task' hstep => halt.unchanged hstep⟩

/-- A task that received the second of two commands, with the callback of the second write
outstanding. -/
def answering : ClientTask where
  m_bufferSend := ascii "Row[8] = <error>"
  m_bufferRecv := ascii "0 8"
  m_streamWriter := 2
  writing := [⟨2, ascii "Row[8] = <error>"⟩]
  reading := false
  closed := false

/-- Two commands to a client without a data file. -/
theorem alternates_run_answering :
    answering.Alternates ∧
      ∀ e task', step .x64 [] answering e = some task' → answering.writing ≠ [] →
        task'.m_streamWriter = answering.m_streamWriter ∧
          task'.m_bufferSend = answering.m_bufferSend :=
  alternates_run .x64 [] [.read 3 (ascii "0 7") true, .write 0, .read 3 (ascii "0 8") true]
    answering rfl

end ClientTask

end NitroCloud.CsLibuv
