import NitroCloud.Task.Run

/-!
# How often a task is finished

The calls of `OnStarted`, and of `OnFinished` before and after the loop, lie outside the `try`
block, and the one in the handler is not protected either; those in a step lie inside it, so that
an exception of `OnFinished` there leads to a second call.  For callbacks that do anything at all,
the thread calls `OnFinished` once and lets nothing escape exactly when neither `OnStarted` nor the
first call of `OnFinished` throws.
-/

namespace NitroCloud

open Bytes

namespace Task

/-- The number of calls of `OnFinished`. -/
def finishes (calls : List Call) : ℕ := calls.countP Call.isFinished

variable (task : Task) (cb : Callbacks) (threadId : ThreadId)

/-- How a `try` block may end that starts before any call of `OnFinished`. -/
inductive TryEnds (cb : Callbacks) : EStateM.Result Bytes Thread Bool → Prop where
  | goesOn {thread : Thread} (h : finishes thread.calls = 0) : TryEnds cb (.ok false thread)
  | finished {thread : Thread} (h₀ : cb.onFinished 0 = .ok ()) (h : finishes thread.calls = 1) :
    TryEnds cb (.ok true thread)
  | threw {what : Bytes} {thread : Thread} (h : finishes thread.calls = 0) :
    TryEnds cb (.error what thread)
  | finishThrew {what : Bytes} {thread : Thread} (h₀ : cb.onFinished 0 = .error what)
    (h : finishes thread.calls = 1) : TryEnds cb (.error what thread)

/-- How a step or the loop may end that starts before any call of `OnFinished`. -/
inductive Ends (cb : Callbacks) : EStateM.Result Bytes Thread Bool → Prop where
  | goesOn {thread : Thread} (h : finishes thread.calls = 0) : Ends cb (.ok false thread)
  | once {thread : Thread} (h₀ : cb.onFinished 0 = .ok ()) (h : finishes thread.calls = 1) :
    Ends cb (.ok true thread)
  | twice {what : Bytes} {thread : Thread} (h₀ : cb.onFinished 0 = .error what)
    (h : finishes thread.calls = 2) : Ends cb (.ok true thread)
  | escapes {what what' : Bytes} {thread : Thread} (h₀ : cb.onFinished 0 = .error what) :
    Ends cb (.error what' thread)

theorem finishes_append_singleton (calls : List Call) (call : Call) :
    finishes (calls ++ [call]) = finishes calls + if call.isFinished then 1 else 0 := by
  rw [finishes, List.countP_append, List.countP_singleton]
  rfl

/-- A report of the end of the task: the stream is cleared and given a text, and `OnFinished` is
called with it. -/
theorem report_apply (text : Bytes) (taskResult : TaskResult) (thread : Thread) :
    (clear >>= fun _ => write text >>= fun _ => onFinished cb taskResult >>= fun _ =>
        pure true : Body Bool) thread =
      let thread' := ⟨text, thread.calls ++ [.onFinished taskResult text]⟩
      match cb.onFinished (finishes thread.calls) with
      | .ok _ => .ok true thread'
      | .error what => .error what thread' := by
  simp only [bind_apply, clear_apply, write_apply, onFinished, upcall, List.nil_append, finishes]
  cases cb.onFinished (thread.calls.countP Call.isFinished) <;> rfl

theorem report_ends (text : Bytes) (taskResult : TaskResult) {thread : Thread}
    (h : finishes thread.calls = 0) :
    TryEnds cb ((clear >>= fun _ => write text >>= fun _ => onFinished cb taskResult >>= fun _ =>
      pure true : Body Bool) thread) := by
  have hone : finishes (thread.calls ++ [.onFinished taskResult text]) = 1 := by
    rw [finishes_append_singleton, h]
    rfl
  rw [report_apply, h]
  rcases h₀ : cb.onFinished 0 with what | _
  · exact .finishThrew h₀ hone
  · exact .finished h₀ hone

theorem tryBlock_ends (step : ℕ) {thread : Thread} (h : finishes thread.calls = 0) :
    TryEnds cb (tryBlock task cb threadId step thread) := by
  unfold tryBlock
  split_ifs with hstep
  · have hcalled : finishes (thread.calls ++ [.handleFail]) = 0 := by
      rw [finishes_append_singleton, h]
      rfl
    rw [bind_apply]
    rcases hfail : cb.handleFail with what | _
    · simp only [handleFail, upcall, hfail]
      exact .threw hcalled
    · simp only [handleFail, upcall, hfail]
      exact report_ends cb _ _ hcalled
  · have hcalled : finishes (thread.calls ++
        [.onProgress step task.m_sleepCount.toInt thread.javeMessageCreator]) = 0 := by
      rw [finishes_append_singleton, h]
      rfl
    rw [bind_apply]
    rcases hprogress : cb.onProgress step with what | command
    · simp only [onProgress, upcall, hprogress]
      exact .threw hcalled
    · simp only [onProgress, upcall, hprogress]
      split_ifs
      · exact report_ends cb _ _ hcalled
      · exact .goesOn hcalled

theorem catchBlock_ends (what : Bytes) {thread : Thread} (h : finishes thread.calls = 0) :
    Ends cb (catchBlock cb threadId what thread) := by
  unfold catchBlock
  rw [report_apply, h]
  rcases h₀ : cb.onFinished 0 with what' | _
  · exact .escapes h₀
  · exact .once h₀ (by rw [finishes_append_singleton, h]; rfl)

/-- The handler of an exception that `OnFinished` threw calls it again. -/
theorem catchBlock_ends_again {what : Bytes} {thread : Thread}
    (h₀ : cb.onFinished 0 = .error what) (h : finishes thread.calls = 1) :
    Ends cb (catchBlock cb threadId what thread) := by
  unfold catchBlock
  rw [report_apply, h]
  rcases cb.onFinished 1 with what' | _
  · exact .escapes h₀
  · exact .twice h₀ (by rw [finishes_append_singleton, h]; rfl)

section Rules

-- how code may end that starts before any call of `OnFinished`: it goes on before any call of it
variable {P : EStateM.Result Bytes Thread Bool → Prop}
  (hgoesOn : ∀ thread, P (.ok false thread) ↔ finishes thread.calls = 0)

include hgoesOn

/-- After the `try` statement the stream is cleared when the loop goes on. -/
theorem clear_rule {x : Body Bool} {thread : Thread} (h : P (x thread)) :
    P ((x >>= fun returned =>
      if returned then pure true else clear >>= fun _ => pure false : Body Bool) thread) := by
  rw [bind_apply]
  rcases hx : x thread with ⟨returned, thread'⟩ | ⟨what, thread'⟩
  · rw [hx] at h
    cases returned with
    | false => exact (hgoesOn _).2 ((hgoesOn thread').1 h)
    | true => exact h
  · rw [hx] at h
    exact h

/-- The loop ends as each of its steps may end. -/
theorem loop_rule
    (hstep : ∀ step thread, finishes thread.calls = 0 →
      P (stepBody task cb threadId step thread))
    (left step : ℕ) {thread : Thread} (h : finishes thread.calls = 0) :
    P (loop task cb threadId left step thread) := by
  induction left generalizing step thread with
  | zero => exact (hgoesOn thread).2 h
  | succ left ih =>
    have hends := hstep step thread h
    unfold loop
    rw [bind_apply]
    rcases hbody : stepBody task cb threadId step thread with ⟨returned, thread'⟩ | ⟨what, thread'⟩
    · rw [hbody] at hends
      cases returned with
      | false => exact ih (step + 1) ((hgoesOn thread').1 hends)
      | true => exact hends
    · rw [hbody] at hends
      exact hends

end Rules

theorem ends_goesOn_iff (thread : Thread) :
    Ends cb (.ok false thread) ↔ finishes thread.calls = 0 := by
  constructor
  · intro h
    cases h with
    | goesOn h => exact h
  · exact .goesOn

theorem stepBody_ends (step : ℕ) {thread : Thread} (h : finishes thread.calls = 0) :
    Ends cb (stepBody task cb threadId step thread) := by
  unfold stepBody
  rw [bind_apply, write_apply]
  apply clear_rule (ends_goesOn_iff cb)
  rw [tryCatch_apply]
  have htry : TryEnds cb (tryBlock task cb threadId step
      ⟨thread.javeMessageCreator ++ progressMessage threadId, thread.calls⟩) :=
    tryBlock_ends task cb threadId step h
  generalize tryBlock task cb threadId step _ = result at htry ⊢
  cases htry with
  | goesOn h => exact .goesOn h
  | finished h₀ h => exact .once h₀ h
  | threw h => exact catchBlock_ends cb threadId _ h
  | finishThrew h₀ h => exact catchBlock_ends_again cb threadId h₀ h

theorem loop_ends (left step : ℕ) {thread : Thread} (h : finishes thread.calls = 0) :
    Ends cb (loop task cb threadId left step thread) :=
  loop_rule task cb threadId (ends_goesOn_iff cb)
    (fun step _ h => stepBody_ends task cb threadId step h) left step h

/-! ## The thread -/

/-- The code returned, and `OnFinished` has been called exactly once. -/
def Once (result : EStateM.Result Bytes Thread Unit) : Prop :=
  ∃ thread, result = .ok () thread ∧ finishes thread.calls = 1

/-- A call of `OnFinished` outside the loop, the first one. -/
theorem once_onFinished_iff (text : Bytes) (taskResult : TaskResult) {thread : Thread}
    (h : finishes thread.calls = 0) :
    Once ((write text >>= fun _ => onFinished cb taskResult) thread) ↔
      cb.onFinished 0 = .ok () := by
  have hcount : thread.calls.countP Call.isFinished = 0 := h
  simp only [bind_apply, write_apply, onFinished, upcall, hcount]
  rcases cb.onFinished 0 with what | _
  · simp [Once]
  · simp [Once, finishes_append_singleton, h, Call.isFinished]

/-- The end of the thread after a loop that started before any call of `OnFinished`. -/
theorem once_afterLoop_iff (text : Bytes) (taskResult : TaskResult) {x : Body Bool}
    {thread : Thread} (h : Ends cb (x thread)) :
    Once ((x >>= fun returned =>
        if returned then pure () else write text >>= fun _ => onFinished cb taskResult) thread) ↔
      cb.onFinished 0 = .ok () := by
  rw [bind_apply]
  generalize x thread = result at h ⊢
  cases h with
  | goesOn h => exact once_onFinished_iff cb text taskResult h
  | once h₀ h => exact iff_of_true ⟨_, rfl, h⟩ h₀
  | @twice what thread h₀ h =>
    refine iff_of_false ?_ (by simp [h₀])
    rintro ⟨thread', hthread, hfinishes⟩
    cases hthread
    omega
  | escapes h₀ =>
    refine iff_of_false ?_ (by simp [h₀])
    rintro ⟨thread', hthread, -⟩
    cases hthread

/-- Whatever the callbacks do, the thread calls `OnFinished` exactly once and lets no exception
escape exactly when neither `OnStarted` nor the first call of `OnFinished` throws. -/
theorem once_run_iff (task : Task) (cb : Callbacks) (threadId : ThreadId) :
    Once (run task cb threadId) ↔
      (∃ command, cb.onStarted = .ok command) ∧ cb.onFinished 0 = .ok () := by
  have hstarted : finishes (startedThread threadId).calls = 0 := rfl
  rcases hcommand : cb.onStarted with what | command
  · rw [run_of_not_started task threadId hcommand]
    simp [Once]
  · have hreturned : ∃ command', (Except.ok command : Except Bytes TaskCallbackCommnad) =
        .ok command' := ⟨command, rfl⟩
    rw [and_iff_right hreturned, run_of_started task threadId hcommand]
    split_ifs with hcancel
    · exact once_onFinished_iff cb _ _ hstarted
    · exact once_afterLoop_iff cb _ _ (loop_ends task cb threadId _ _ hstarted)

/-- Callbacks of which only `OnStarted` throws. -/
def throwsOnStarted : Callbacks where
  onStarted := .error (ascii "java.lang.NullPointerException")
  onProgress _ := .ok .taskContinue
  handleFail := .ok ()
  onFinished _ := .ok ()

/-- An exception of `OnStarted` escapes from the thread. -/
theorem not_once_run :
    ¬ ∀ (task : Task) (cb : Callbacks) (threadId : ThreadId), Once (run task cb threadId) := by
  intro h
  obtain ⟨thread, hrun, -⟩ := h ⟨3, -1⟩ throwsOnStarted ⟨ascii "5", 5⟩
  cases hrun

end Task

end NitroCloud
