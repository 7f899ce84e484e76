import NitroCloud.Command.Codec
import NitroCloud.CsLibuv.ServerTask

/-!
# What the libuv server records

The receive buffer is, at all times, a string of bytes without a NUL, as long as the longest
response so far, followed by zeros (`Inv.buffer`).  A response overwrites the front of that string,
and what is recorded is the whole string: the response, and the tail of an earlier one that was
longer.
-/

namespace NitroCloud.CsLibuv.ServerTask

open Bytes

/-- The states reached when every response is delivered whole by one read callback. -/
def Reachable (t : Target) (file : Bytes) (task : ServerTask) : Prop :=
  Machine.Reachable (answeredStep t file) new task

/-- The bytes `live`, without a NUL and as long as the longest one delivered, then zeros up to the
length of the buffer. -/
structure Buffer (bufferRecv : Bytes) (delivered : List Bytes) (live : Bytes) : Prop where
  eq : bufferRecv = live ++ List.replicate (suggestedSize + 1 - live.length) 0
  nul : (0 : UInt8) ∉ live
  le : live.length ≤ suggestedSize
  longest : ∀ n, live.length ≤ n ↔ ∀ bs ∈ delivered, bs.length ≤ n

theorem Buffer.cStr_eq {bufferRecv live : Bytes} {delivered : List Bytes}
    (h : Buffer bufferRecv delivered live) : cStr bufferRecv = live := by
  rw [h.eq, cStr_append h.nul]
  cases suggestedSize + 1 - live.length <;> simp [cStr, List.replicate_succ]

/-- A buffer that was allocated once stays as it is. -/
theorem Buffer.allocate_eq {bufferRecv live : Bytes} {delivered : List Bytes}
    (h : Buffer bufferRecv delivered live) : allocate bufferRecv suggestedSize = bufferRecv := by
  have hle := h.le
  apply if_neg
  rw [h.eq, List.length_append, List.length_replicate]
  omega

/-- Storing a response leaves the tail of a longer one behind it. -/
theorem Buffer.store {bufferRecv live received : Bytes} {delivered : List Bytes}
    (h : Buffer bufferRecv delivered live) (hnul : (0 : UInt8) ∉ received)
    (hlength : received.length ≤ suggestedSize) :
    Buffer (bufferRecv.store received) (delivered ++ [received])
      (received ++ live.drop received.length) := by
  have hlive : (received ++ live.drop received.length).length =
      received.length + (live.length - received.length) := by
    rw [List.length_append, List.length_drop]
  constructor
  · have hzeros : suggestedSize + 1 - live.length - (received.length - live.length) =
        suggestedSize + 1 - (received.length + (live.length - received.length)) := by
      omega
    rw [hlive, h.eq, Bytes.store, List.drop_append, List.drop_replicate, hzeros,
      List.append_assoc]
  · intro hmem
    rcases List.mem_append.1 hmem with hmem | hmem
    · exact hnul hmem
    · exact h.nul (List.mem_of_mem_drop hmem)
  · have hle := h.le
    omega
  · intro n
    rw [hlive, List.forall_mem_append, ← h.longest n, List.forall_mem_singleton]
    omega

/-- The invariant of the task. -/
structure Inv (t : Target) (file : Bytes) (task : ServerTask) : Prop where
  /-- The buffer as `HandleAllocate` makes it. -/
  buffer : ∃ live, Buffer (allocate task.m_bufferRecv suggestedSize) task.delivered live
  request : ∀ result, task.m_currentCommandResult = some result →
    ∃ c : Count, result = ⟨c.message, []⟩
  /-- What was delivered are the answers to the requests. -/
  answers : (task.m_collection.map fun result => answer t file result.request) =
    task.delivered.map some
  responses : task.m_collection.map Result.response = task.delivered ↔
    task.delivered.Pairwise fun bs bs' => bs.length ≤ bs'.length

variable {t : Target} {file : Bytes} {task task' : ServerTask}

theorem inv_new : Inv t file new := by
  refine ⟨⟨[], ?_, by simp, by simp, by simp [new]⟩, by simp [new], rfl, by simp [new]⟩
  exact if_pos (by decide)

/-- A step that leaves the buffer and the results alone. -/
theorem Inv.frame (h : Inv t file task) (hbuffer : task'.m_bufferRecv = task.m_bufferRecv)
    (hdelivered : task'.delivered = task.delivered)
    (hcollection : task'.m_collection = task.m_collection)
    (hrequest : ∀ result, task'.m_currentCommandResult = some result →
      ∃ c : Count, result = ⟨c.message, []⟩) : Inv t file task' := by
  obtain ⟨live, hlive⟩ := h.buffer
  refine ⟨⟨live, ?_⟩, hrequest, ?_, ?_⟩
  · rw [hbuffer, hdelivered]
    exact hlive
  · rw [hcollection, hdelivered]
    exact h.answers
  · rw [hcollection, hdelivered]
    exact h.responses

/-- A response is recorded with the tail that it left behind it. -/
theorem Inv.read {received : Bytes} (h : Inv t file task)
    (hstep : answeredStep t file task (.read received) = some task') : Inv t file task' := by
  simp only [answeredStep] at hstep
  split_ifs at hstep with hanswer
  simp only [ServerTask.step] at hstep
  split_ifs at hstep with hguard
  simp only [handleRead, Option.map_eq_some_iff] at hstep
  obtain ⟨result, hresult, rfl⟩ := hstep
  rw [hresult, Option.bind_some] at hanswer
  have hnul : (0 : UInt8) ∉ received := by
    obtain ⟨c, rfl⟩ := h.request result hresult
    rw [← Option.some.inj ((answer_self t file c).symm.trans hanswer)]
    exact c.zero_notMem_run t file
  obtain ⟨live, hlive⟩ := h.buffer
  have hstored := hlive.store hnul hguard.2.2
  refine ⟨⟨received ++ live.drop received.length, ?_⟩, by simp, ?_, ?_⟩
  · simp only [hstored.allocate_eq]
    exact hstored
  · rw [List.map_append, List.map_append, h.answers, List.map_singleton, List.map_singleton,
      hanswer]
  · -- the recorded response is the one delivered exactly when nothing was longer before
    have hresponse : received ++ live.drop received.length = received ↔
        ∀ bs ∈ task.delivered, bs.length ≤ received.length := by
      rw [List.append_right_eq_self, List.drop_eq_nil_iff, hlive.longest]
    rw [List.map_append, List.pairwise_append, ← h.responses]
    simp only [List.map_cons, List.map_nil, hstored.cStr_eq]
    rw [List.append_singleton_inj, hresponse]
    simp

theorem Inv.step {e : Event} (h : Inv t file task)
    (hstep : answeredStep t file task e = some task') : Inv t file task' := by
  cases e with
  | send command =>
    simp only [answeredStep, ServerTask.step] at hstep
    split_ifs at hstep
    cases hstep
    exact h.frame rfl rfl rfl fun result hresult => ⟨command, (Option.some.inj hresult).symm⟩
  | write =>
    simp only [answeredStep, ServerTask.step] at hstep
    split_ifs at hstep
    cases hstep
    exact h.frame rfl rfl rfl h.request
  | read received => exact h.read hstep
  | readError => cases hstep

theorem Reachable.inv (h : Reachable t file task) : Inv t file task :=
  Machine.Reachable.invariant (Inv t file) inv_new (fun _ _ _ => Inv.step) h

/-- In every run of a task, what was delivered for the results are the answers to their requests,
and the responses recorded are what was delivered exactly when no answer was shorter than an
earlier one on the same task. -/
theorem responses_eq_delivered_iff (h : Reachable t file task) :
    (task.m_collection.map fun result => answer t file result.request) =
      task.delivered.map some ∧
    (task.m_collection.map Result.response = task.delivered ↔
      task.delivered.Pairwise fun bs bs' => bs.length ≤ bs'.length) :=
  ⟨h.inv.answers, h.inv.responses⟩

/-- The buffer as it is first allocated. -/
def zeros : Bytes := List.replicate (suggestedSize + 1) 0

/-- A task that has been given two commands and their answers. -/
def twoAnswered (t : Target) (file : Bytes) (c c' : Count) : ServerTask where
  m_bufferSend := c'.message
  m_bufferRecv := (zeros.store (c.run t file)).store (c'.run t file)
  m_currentCommandResult := none
  m_collection :=
    [⟨c.message, cStr (zeros.store (c.run t file))⟩,
      ⟨c'.message, cStr ((zeros.store (c.run t file)).store (c'.run t file))⟩]
  writing := 0
  reading := true
  closed := false
  delivered := [c.run t file, c'.run t file]

/-- A task that reads takes the answer to its command. -/
theorem answeredStep_read {c : Count}
    (hcommand : task.m_currentCommandResult = some ⟨c.message, []⟩) (hreading : task.reading = true)
    (hclosed : task.closed = false) :
    answeredStep t file task (.read (c.run t file)) = some
      { task with
        m_bufferRecv := store (allocate task.m_bufferRecv suggestedSize) (c.run t file)
        m_currentCommandResult := none
        m_collection := task.m_collection ++
          [⟨c.message, cStr (store (allocate task.m_bufferRecv suggestedSize) (c.run t file))⟩]
        delivered := task.delivered ++ [c.run t file] } := by
  have hlength : (c.run t file).length ≤ suggestedSize :=
    (c.length_run_le t file).trans (by decide)
  simp only [answeredStep, hcommand, Option.bind_some, answer_self, if_true, ServerTask.step,
    hreading, hclosed, hlength, handleRead, Option.map_some, Bool.false_eq_true, not_false_eq_true,
    and_self]

theorem reachable_twoAnswered (c c' : Count) : Reachable t file (twoAnswered t file c c') := by
  have hfirst : allocate [] suggestedSize = zeros := if_pos (by decide)
  have hagain : allocate (zeros.store (c.run t file)) suggestedSize =
      zeros.store (c.run t file) := by
    have hlength : (c.run t file).length ≤ zeros.length := by
      rw [zeros, List.length_replicate]
      exact (c.length_run_le t file).trans (by decide)
    apply if_neg
    rw [length_store hlength, zeros, List.length_replicate]
    omega
  have hsend : Reachable t file { new with
      m_bufferSend := c.message
      m_currentCommandResult := some ⟨c.message, []⟩
      reading := true } := ⟨[.send c, .write], rfl⟩
  have hread := hsend.trans (.single (answeredStep_read rfl rfl rfl))
  have hsend' := hread.trans ⟨[.send c', .write], rfl⟩
  have hread' := hsend'.trans (.single (answeredStep_read (c := c') rfl rfl rfl))
  simp only [new, sendCommad, handleWrite, hfirst, hagain] at hread'
  exact hread'

theorem responses_eq_delivered_iff_growing :
    (twoAnswered .x64 [] ⟨7⟩ ⟨41⟩).m_collection.map Result.response =
      (twoAnswered .x64 [] ⟨7⟩ ⟨41⟩).delivered :=
  (responses_eq_delivered_iff (reachable_twoAnswered ⟨7⟩ ⟨41⟩)).2.2 (by decide)

/-- A response that is shorter than an earlier one is not recorded as it was delivered. -/
theorem responses_ne_delivered :
    ¬ ∀ (t : Target) (file : Bytes) (task : ServerTask), Reachable t file task →
      task.m_collection.map Result.response = task.delivered := by
  intro h
  have hreach : Reachable .x64 [] (twoAnswered .x64 [] ⟨41⟩ ⟨7⟩) := reachable_twoAnswered ⟨41⟩ ⟨7⟩
  have hgrowing := hreach.inv.responses.1 (h _ _ _ hreach)
  exact absurd hgrowing (by decide)

end NitroCloud.CsLibuv.ServerTask
