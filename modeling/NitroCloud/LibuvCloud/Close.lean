import NitroCloud.LibuvCloud.ServerTask

/-!
# Closing the pipe

`HandleRead` closes the handle on an error and `HandleShutdown` closes it when a shutdown is done,
and neither looks whether the other has.  The callback of a shutdown comes even when the handle was
closed before it, so an error that is read while a shutdown is outstanding closes the handle twice.
Nothing else does, and a task is deleted only once its handle is closed (`close_once_iff`).
-/

namespace NitroCloud.LibuvCloud.ServerTask

open Machine

/-- A callback leaves at most one call of `uv_close`, and makes none on a task that was deleted. -/
def CloseOnce (_ : List Event) (task : ServerTask) (e : Event) : Prop :=
  ∀ task', step task e = some task' →
    task'.closes ≤ 1 ∧ (task.deleted = true → task'.closes = task.closes)

/-- No error is read while the callback of a shutdown is outstanding. -/
def NoErrorInShutdown (_ : List Event) (task : ServerTask) (e : Event) : Prop :=
  e = .readError → step task e ≠ none → task.shutdown ≠ .outstanding

variable {task task' : ServerTask}

/-- What a callback can do. -/
theorem step_cases {e : Event} (h : step task e = some task') :
    (∃ written, e = .read written ∧ task.handle = .opened ∧ task' = task.handleRead written) ∨
    (e = .eof ∧ task' = { task with reading := false }) ∨
    (e = .readError ∧ task.handle = .opened ∧ task' = task.close false) ∨
    (∃ status, e = .write status ∧ 0 < task.writing ∧
      task' = { task with writing := task.writing - 1 }.handleWrite) ∨
    (∃ status, e = .shutdown status ∧ task.shutdown = .outstanding ∧
      task' = { task with shutdown := .completed }.handleShutdown) ∨
    (∃ handleFinishClose, e = .closed ∧ task.handle = .closing handleFinishClose ∧
      task.writing = 0 ∧ task.shutdown ≠ .outstanding ∧
      task' = { task with
        handle := .closed
        m_pipe := if handleFinishClose then false else task.m_pipe }) ∨
    (e = .work ∧ task' = task.afterSomeWorkHandleStat) := by
  unfold step at h
  by_cases habort : 1 < task.closes
  · rw [if_pos habort] at h
    cases h
  rw [if_neg habort] at h
  cases e with
  | read written =>
    obtain ⟨⟨hopened, -⟩, ⟨⟩⟩ := Option.ite_none_right_eq_some.1 h
    exact .inl ⟨written, rfl, hopened, rfl⟩
  | eof =>
    obtain ⟨-, ⟨⟩⟩ := Option.ite_none_right_eq_some.1 h
    exact .inr (.inl ⟨rfl, rfl⟩)
  | readError =>
    obtain ⟨⟨hopened, -⟩, ⟨⟩⟩ := Option.ite_none_right_eq_some.1 h
    exact .inr (.inr (.inl ⟨rfl, hopened, rfl⟩))
  | write status =>
    obtain ⟨hwriting, ⟨⟩⟩ := Option.ite_none_right_eq_some.1 h
    exact .inr (.inr (.inr (.inl ⟨status, rfl, hwriting, rfl⟩)))
  | shutdown status =>
    obtain ⟨hshutdown, ⟨⟩⟩ := Option.ite_none_right_eq_some.1 h
    exact .inr (.inr (.inr (.inr (.inl ⟨status, rfl, hshutdown, rfl⟩))))
  | closed =>
    simp only at h
    split at h
    · next handleFinishClose hclosing =>
      obtain ⟨⟨hwriting, hshutdown⟩, ⟨⟩⟩ := Option.ite_none_right_eq_some.1 h
      exact .inr (.inr (.inr (.inr (.inr (.inl
        ⟨handleFinishClose, rfl, hclosing, hwriting, hshutdown, rfl⟩)))))
    · cases h
  | work =>
    simp only at h
    split_ifs at h
    cases h
    exact .inr (.inr (.inr (.inr (.inr (.inr ⟨rfl, rfl⟩)))))

/-- What holds as long as no error is read in a shutdown. -/
structure Ok (task : ServerTask) : Prop where
  closes : task.closes = if task.handle = .opened then 0 else 1
  reading : task.reading = true → task.handle = .opened
  shutdown : task.shutdown = .outstanding → task.handle = .opened
  /-- The pipe is reset when the handle is closed, or in the constructor. -/
  pipe : task.m_pipe = false → task.handle = .closed ∨
    task.m_currentState = 0 ∧ task.handle ≠ .opened
  closed : task.handle = .closed → task.writing = 0
  deleted : task.deleted = true → task.handle = .closed

theorem ok_new (accepted : Bool) : (new accepted).Ok := by
  cases accepted <;> constructor <;> decide

/-- While the handle is open, it has not been closed and the task is not deleted. -/
theorem Ok.of_opened (hok : task.Ok) (hopened : task.handle = .opened) :
    task.closes = 0 ∧ task.deleted = false := by
  refine ⟨by rw [hok.closes, if_pos hopened], ?_⟩
  by_contra hdeleted
  rw [Bool.not_eq_false] at hdeleted
  rw [hok.deleted hdeleted] at hopened
  cases hopened

theorem Ok.startListen (hok : task.Ok) : task.startListen.Ok := by
  unfold ServerTask.startListen
  split_ifs with hlisten
  · exact { hok with reading := fun _ => hlisten.2 }
  · exact hok

theorem Ok.handleWrite (hok : task.Ok) : task.handleWrite.Ok := by
  unfold ServerTask.handleWrite
  split_ifs with hbuy hshutdown
  · exact { hok with shutdown := fun _ => hshutdown.1 }
  · exact hok
  · exact hok.startListen

/-- Closing a handle that is open, with no shutdown outstanding. -/
theorem Ok.close (hok : task.Ok) (hopened : task.handle = .opened)
    (hshutdown : task.shutdown ≠ .outstanding) (handleFinishClose : Bool) :
    (task.close handleFinishClose).Ok := by
  obtain ⟨hcloses, hdeleted⟩ := hok.of_opened hopened
  constructor
  · simp [ServerTask.close, hcloses]
  · simp [ServerTask.close]
  · simp [ServerTask.close, hshutdown]
  · intro hpipe
    rcases hok.pipe hpipe with hclosed | ⟨-, hnot⟩
    · rw [hopened] at hclosed
      cases hclosed
    · exact absurd hopened hnot
  · simp [ServerTask.close]
  · simp [ServerTask.close, hdeleted]

theorem Ok.handleRead (hok : task.Ok) (hopened : task.handle = .opened) (written : Bool) :
    (task.handleRead written).Ok := by
  refine { hok with pipe := ?_, closed := ?_ }
  · intro hpipe
    rcases hok.pipe hpipe with hclosed | ⟨-, hnot⟩
    · exact .inl hclosed
    · exact absurd hopened hnot
  · intro hclosed
    rw [show task.handle = .closed from hclosed] at hopened
    cases hopened

/-- The handle is closed once nothing is outstanding on it. -/
theorem Ok.finishClose (hok : task.Ok) {handleFinishClose : Bool}
    (hclosing : task.handle = .closing handleFinishClose) (hwriting : task.writing = 0)
    (hshutdown : task.shutdown ≠ .outstanding) (m_pipe : Bool) :
    Ok { task with handle := .closed, m_pipe := m_pipe } := by
  refine ⟨?_, ?_, ?_, fun _ => .inl rfl, fun _ => hwriting, fun _ => rfl⟩
  · simpa [hclosing] using hok.closes
  · intro hreading
    rw [hok.reading hreading] at hclosing
    cases hclosing
  · exact fun houtstanding => absurd houtstanding hshutdown

/-- A task in state `Buy` without a pipe has its handle closed. -/
theorem Ok.afterSomeWorkHandleStat (hok : task.Ok) : task.afterSomeWorkHandleStat.Ok := by
  unfold ServerTask.afterSomeWorkHandleStat
  split_ifs with hdelete
  · obtain ⟨hbuy, hpipe⟩ := hdelete
    refine { hok with deleted := fun _ => ?_ }
    rcases hok.pipe (by simpa using hpipe) with hclosed | ⟨hzero, -⟩
    · exact hclosed
    · rw [hbuy] at hzero
      cases hzero
  · exact hok

theorem Ok.step {before : List Event} {e : Event} (hok : task.Ok)
    (herror : NoErrorInShutdown before task e) (h : ServerTask.step task e = some task') :
    task'.Ok := by
  have hallowed : ServerTask.step task e ≠ none := by
    rw [h]
    exact Option.some_ne_none _
  rcases step_cases h with ⟨written, -, hopened, rfl⟩ | ⟨-, rfl⟩ | ⟨he, hopened, rfl⟩ |
    ⟨status, -, hwriting, rfl⟩ | ⟨status, -, hshutdown, rfl⟩ |
    ⟨handleFinishClose, -, hclosing, hwriting, hshutdown, rfl⟩ | ⟨-, rfl⟩
  · exact hok.handleRead hopened written
  · exact { hok with reading := nofun }
  · exact hok.close hopened (herror he hallowed) false
  · refine Ok.handleWrite { hok with closed := ?_ }
    intro hclosed
    have hzero := hok.closed hclosed
    omega
  · have hcompleted : Ok { task with shutdown := .completed } := { hok with shutdown := nofun }
    exact hcompleted.close (hok.shutdown hshutdown) nofun true
  · exact hok.finishClose hclosing hwriting hshutdown _
  · exact hok.afterSomeWorkHandleStat

/-- Only the callbacks with a read error and of a shutdown call `uv_close`. -/
theorem closes_step {e : Event} (h : ServerTask.step task e = some task') :
    task'.closes = task.closes ∨ task.handle = .opened ∨ task.shutdown = .outstanding := by
  rcases step_cases h with ⟨written, -, -, rfl⟩ | ⟨-, rfl⟩ | ⟨-, hopened, rfl⟩ |
    ⟨status, -, -, rfl⟩ | ⟨status, -, hshutdown, rfl⟩ | ⟨handleFinishClose, -, -, -, -, rfl⟩ |
    ⟨-, rfl⟩
  · exact .inl rfl
  · exact .inl rfl
  · exact .inr (.inl hopened)
  · left
    simp only [handleWrite, startListen]
    split_ifs <;> rfl
  · exact .inr (.inr hshutdown)
  · exact .inl rfl
  · left
    unfold afterSomeWorkHandleStat
    split_ifs <;> rfl

theorem Ok.closeOnce {before : List Event} {e : Event} (hok : task.Ok)
    (herror : NoErrorInShutdown before task e) : CloseOnce before task e := by
  intro task' h
  have hok' : task'.Ok := hok.step herror h
  refine ⟨?_, fun hdeleted => ?_⟩
  · rw [hok'.closes]
    split_ifs <;> omega
  · have hclosed := hok.deleted hdeleted
    rcases closes_step h with hcloses | hopened | hshutdown
    · exact hcloses
    · rw [hopened] at hclosed
      cases hclosed
    · rw [hok.shutdown hshutdown] at hclosed
      cases hclosed

/-- In every order of callbacks, whether the connection was accepted or not: `uv_close` is called
at most once, and never on a deleted task, also by the callback of a shutdown that is outstanding,
if and only if no error other than `UV_EOF` is read while such a callback is outstanding. -/
theorem close_once_iff (accepted : Bool) (es : List Event) :
    (∀ before after status, es = before ++ after →
        Along ServerTask.step (new accepted) CloseOnce (before ++ [.shutdown status])) ↔
      Along ServerTask.step (new accepted) NoErrorInShutdown es := by
  constructor
  · intro h before e after task hes hs he hallowed hshutdown
    obtain ⟨task', htask'⟩ := Option.ne_none_iff_exists'.1 hallowed
    have hrun : run ServerTask.step (new accepted) (before ++ [e]) = some task' := by
      rw [run_concat, hs, Option.bind_some, htask']
    have hboth := h (before ++ [e]) after 0 (by rw [hes]; simp)
    have hone := (hboth.of_append.last hs task' htask').1
    subst he
    obtain ⟨-, rfl⟩ : task.handle = .opened ∧ task' = task.close false := by
      simpa using step_cases htask'
    have hshutdown' : ServerTask.step (task.close false) (.shutdown 0) =
        some { task.close false with shutdown := .completed }.handleShutdown := by
      unfold ServerTask.step
      rw [if_neg (by omega)]
      exact if_pos hshutdown
    have htwo := (hboth.last hrun _ hshutdown').1
    simp only [handleShutdown, close] at htwo
    omega
  · intro h before after status hes
    have hbefore : Along ServerTask.step (new accepted) NoErrorInShutdown
        (before ++ [.shutdown status]) := by
      apply (hes ▸ h).of_append.concat
      intro task _ he
      cases he
    exact hbefore.imp (fun _ task => task.Ok) (ok_new accepted)
      (fun _ _ _ _ hok herror h => hok.step herror h) (fun _ _ _ hok herror => hok.closeOnce herror)

/-- Five messages, each answered before the next one, then an error, and the callback of the
shutdown with `ECANCELED`. -/
def errorInShutdown : List Event :=
  [.read true, .write 0, .read true, .write 0, .read true, .write 0, .read true, .write 0,
    .read true, .write 0, .readError, .shutdown (-125)]

/-- The handle is closed by `HandleRead` and again by `HandleShutdown`. -/
theorem closes_errorInShutdown :
    (run ServerTask.step (new true) errorInShutdown).map closes = some 2 ∧
      ¬ Along ServerTask.step (new true) CloseOnce errorInShutdown := by
  have htwo : (run ServerTask.step (new true) errorInShutdown).map closes = some 2 := by decide
  refine ⟨htwo, ?_⟩
  intro h
  obtain ⟨task', htask', hcloses⟩ := Option.map_eq_some_iff.1 htwo
  have hsplit : errorInShutdown = errorInShutdown.take 11 ++ [.shutdown (-125)] := rfl
  rw [hsplit, run_concat, Option.bind_eq_some_iff] at htask'
  obtain ⟨task, htask, hstep⟩ := htask'
  have hone := ((hsplit ▸ h).last htask task' hstep).1
  omega

end NitroCloud.LibuvCloud.ServerTask
