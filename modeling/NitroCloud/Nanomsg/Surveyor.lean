import NitroCloud.Foundations.BigEndian
import NitroCloud.Foundations.Machine
import Mathlib.Data.Nat.ModEq

/-!
# The surveyor and its timer

`protocols/survey/surveyor.c` and `aio/timer.c` of the nanomsg library that `survey_socket.h` uses.
A survey is tagged with an identifier whose top bit is set.  A new survey cancels the one that is in
progress; it is stored in `tosend` and sent when the timer of the old one has been stopped, which a
worker thread does.

The library works on a socket under the lock of its context, and the events raised meanwhile are
processed before the lock is given up, so a call of the user and a task of the worker are one step
each.  `aborted` is set where the code would run into `nn_fsm_bad_action`, `nn_fsm_bad_source` or an
assertion; that it never is follows from the invariant `Surveyor.Ok`.
-/

namespace NitroCloud.Nanomsg.Survey

open Bytes

/-- `nn_putl`. -/
def putl (val : UInt32) : Bytes := beBytes 4 val.toNat

/-- `nn_getl`, on the bytes of a word. -/
def getl (buf : Bytes) : UInt32 := UInt32.ofNat (beValue buf)

@[simp] theorem length_putl (val : UInt32) : (putl val).length = 4 := length_beBytes _ _

@[simp] theorem getl_putl (val : UInt32) : getl (putl val) = val := by
  have hlt : val.toNat < 256 ^ 4 := val.toNat_lt
  rw [getl, putl, beValue_beBytes_of_lt hlt, UInt32.ofNat_toNat]

/-! ## The timer -/

/-- The state of a timer as its owner sees it. -/
inductive TimerState where
  | idle
  | active
  | stopping
deriving DecidableEq, Repr

/-- A task queued for the worker. -/
inductive WorkerTask where
  | start_task
  | stop_task
deriving DecidableEq, Repr

/-- `nn_timer`, with its tasks in the queue of the worker; `wtimer` says that the worker is going to
report the timeout. -/
structure Timer where
  state : TimerState
  tasks : List WorkerTask
  wtimer : Bool
deriving DecidableEq, Repr

namespace Timer

def new : Timer := ⟨.idle, [], false⟩

/-- `nn_timer_start`, which asserts that the timer is idle. -/
def start (timer : Timer) : Option Timer :=
  if timer.state = .idle then
    some { timer with state := .active, tasks := timer.tasks ++ [.start_task] }
  else none

/-- `nn_timer_stop`. -/
def stop (timer : Timer) : Timer :=
  if timer.state = .active then
    { timer with state := .stopping, tasks := timer.tasks ++ [.stop_task] }
  else timer

end Timer

/-! ## The surveyor -/

/-- The states of `nn_surveyor` after its initialisation. -/
inductive SurveyorState where
  | passive
  | active
  | cancelling
  | stopping_timer
deriving DecidableEq, Repr

/-- What `nn_surveyor_handler` is called with: its two actions and the two events of the timer. -/
inductive FsmEvent where
  | start
  | cancel
  | timeout
  | stopped
deriving DecidableEq, Repr

/-- `nn_surveyor`. -/
structure Surveyor where
  state : SurveyorState
  surveyid : UInt32
  timer : Timer
  /-- The survey, with its identifier in front. -/
  tosend : Bytes
  timedout : Bool
  aborted : Bool
deriving DecidableEq, Repr

namespace Surveyor

/-- A socket just created, which draws its first identifier at random. -/
def new (surveyid : UInt32) : Surveyor := ⟨.passive, surveyid, .new, [], false, false⟩

/-- `nn_surveyor_inprogress`. -/
def inprogress (s : Surveyor) : Bool := s.state ≠ .passive

/-- `nn_surveyor_resend` and the start of the timer: the message goes to all pipes. -/
def resend (s : Surveyor) : Surveyor × Option Bytes :=
  match s.timer.start with
  | some timer => ({ s with timer := timer, state := .active }, some s.tosend)
  | none => ({ s with aborted := true }, some s.tosend)

/-- `nn_surveyor_handler`: the socket after it, and the message that it sends. -/
def handler (s : Surveyor) (e : FsmEvent) : Surveyor × Option Bytes :=
  match s.state, e with
  | .passive, .start => s.resend
  | .active, .cancel => ({ s with timer := s.timer.stop, state := .cancelling }, none)
  | .active, .timeout =>
    ({ s with timer := s.timer.stop, state := .stopping_timer, timedout := true }, none)
  | .cancelling, .cancel => (s, none)
  | .cancelling, .stopped => s.resend
  | .stopping_timer, .cancel => ({ s with state := .cancelling }, none)
  | .stopping_timer, .stopped => ({ s with state := .passive }, none)
  | _, _ => ({ s with aborted := true }, none)

/-- The identifier of the next survey. -/
def nextId (surveyid : UInt32) : UInt32 := (surveyid + 1) ||| 0x80000000

/-- `nn_surveyor_send`. -/
def send (s : Surveyor) (body : Bytes) : Surveyor × Option Bytes :=
  let surveyid := nextId s.surveyid
  let s := { s with surveyid := surveyid, tosend := putl surveyid ++ body }
  s.handler (if s.inprogress then .cancel else .start)

/-- `nn_xsurveyor_recv` and the loop of `nn_surveyor_recv` for one message: the body, unless the
message is too short or answers another survey. -/
def accept (s : Surveyor) (msg : Bytes) : Option Bytes :=
  if msg.length < 4 then none
  else if getl (msg.take 4) ≠ s.surveyid then none
  else some (msg.drop 4)

/-- The errors of `nn_surveyor_recv` when no survey is in progress. -/
inductive Errno where
  | ETIMEDOUT
  | EFSM
deriving DecidableEq, Repr

/-- `nn_surveyor_recv` when no survey is in progress. -/
def recvPassive (s : Surveyor) : Surveyor × Errno :=
  if s.timedout then ({ s with timedout := false }, .ETIMEDOUT) else (s, .EFSM)

/-- The worker executes its oldest task. -/
def task (s : Surveyor) : Option (Surveyor × Option Bytes) :=
  match s.timer.tasks, s.timer.state with
  | [], _ => none
  | .start_task :: tasks, .active =>
    some ({ s with timer := { s.timer with tasks := tasks, wtimer := true } }, none)
  | .start_task :: tasks, .stopping =>
    some ({ s with timer := { s.timer with tasks := tasks } }, none)
  | .stop_task :: tasks, .stopping =>
    some (handler { s with timer := ⟨.idle, tasks, false⟩ } .stopped)
  | _ :: _, _ => some ({ s with aborted := true }, none)

/-- The worker reports the timeout. -/
def expire (s : Surveyor) : Option (Surveyor × Option Bytes) :=
  if s.timer.wtimer then
    match s.timer.state with
    | .active => some (handler { s with timer := { s.timer with wtimer := false } } .timeout)
    | .stopping => some ({ s with timer := { s.timer with wtimer := false } }, none)
    | .idle => some ({ s with aborted := true }, none)
  else none

/-! ## The state machine is never fed what it cannot take -/

/-- The states of the socket and its timer that can occur together. -/
inductive Phases : SurveyorState → Timer → Prop where
  | passive : Phases .passive ⟨.idle, [], false⟩
  | started : Phases .active ⟨.active, [.start_task], false⟩
  | running : Phases .active ⟨.active, [], true⟩
  | cancelledEarly : Phases .cancelling ⟨.stopping, [.start_task, .stop_task], false⟩
  | cancelled (wtimer : Bool) : Phases .cancelling ⟨.stopping, [.stop_task], wtimer⟩
  | expired : Phases .stopping_timer ⟨.stopping, [.stop_task], false⟩

/-- The invariant of a surveyor: no assertion has failed. -/
structure Ok (s : Surveyor) : Prop where
  phases : Phases s.state s.timer
  running : s.aborted = false

theorem ok_new (surveyid : UInt32) : (new surveyid).Ok := ⟨.passive, rfl⟩

variable {s s' : Surveyor} {msg : Option Bytes}

/-- A survey is tagged with the next identifier, and what is sent, now or later, is that survey. -/
theorem of_send (h : s.Ok) (body : Bytes) :
    (s.send body).1.Ok ∧ (s.send body).1.surveyid = nextId s.surveyid ∧
      (s.send body).1.tosend = putl (nextId s.surveyid) ++ body ∧
      ∀ w ∈ (s.send body).2, w = putl (nextId s.surveyid) ++ body := by
  obtain ⟨state, surveyid, timer, tosend, timedout, aborted⟩ := s
  obtain ⟨hphases, hrunning⟩ := h
  simp only at hphases hrunning
  subst hrunning
  cases hphases with
  | passive => exact ⟨⟨.started, rfl⟩, rfl, rfl, fun w hw => (Option.some.inj hw).symm⟩
  | started => exact ⟨⟨.cancelledEarly, rfl⟩, rfl, rfl, fun w hw => nomatch hw⟩
  | running => exact ⟨⟨.cancelled true, rfl⟩, rfl, rfl, fun w hw => nomatch hw⟩
  | cancelledEarly => exact ⟨⟨.cancelledEarly, rfl⟩, rfl, rfl, fun w hw => nomatch hw⟩
  | cancelled wtimer => exact ⟨⟨.cancelled wtimer, rfl⟩, rfl, rfl, fun w hw => nomatch hw⟩
  | expired => exact ⟨⟨.cancelled false, rfl⟩, rfl, rfl, fun w hw => nomatch hw⟩

/-- What a step of the worker keeps of the socket, and what it sends. -/
structure Kept (s s' : Surveyor) (msg : Option Bytes) : Prop where
  inprogress : s.inprogress = true
  surveyid : s'.surveyid = s.surveyid
  tosend : s'.tosend = s.tosend
  sent : ∀ w ∈ msg, w = s.tosend

/-- The worker has a task only while a survey is in progress. -/
theorem of_task (h : s.Ok) (hstep : s.task = some (s', msg)) : s'.Ok ∧ Kept s s' msg := by
  obtain ⟨state, surveyid, timer, tosend, timedout, aborted⟩ := s
  obtain ⟨hphases, hrunning⟩ := h
  simp only at hphases hrunning
  subst hrunning
  cases hphases with
  | passive => cases hstep
  | started =>
    cases hstep
    exact ⟨⟨.running, rfl⟩, rfl, rfl, rfl, fun w hw => nomatch hw⟩
  | running => cases hstep
  | cancelledEarly =>
    cases hstep
    exact ⟨⟨.cancelled false, rfl⟩, rfl, rfl, rfl, fun w hw => nomatch hw⟩
  | cancelled wtimer =>
    cases hstep
    exact ⟨⟨.started, rfl⟩, rfl, rfl, rfl, fun w hw => (Option.some.inj hw).symm⟩
  | expired =>
    cases hstep
    exact ⟨⟨.passive, rfl⟩, rfl, rfl, rfl, fun w hw => nomatch hw⟩

theorem of_expire (h : s.Ok) (hstep : s.expire = some (s', msg)) : s'.Ok ∧ Kept s s' msg := by
  obtain ⟨state, surveyid, timer, tosend, timedout, aborted⟩ := s
  obtain ⟨hphases, hrunning⟩ := h
  simp only at hphases hrunning
  subst hrunning
  cases hphases with
  | running =>
    cases hstep
    exact ⟨⟨.expired, rfl⟩, rfl, rfl, rfl, fun w hw => nomatch hw⟩
  | cancelled wtimer =>
    cases wtimer with
    | false => cases hstep
    | true =>
      cases hstep
      exact ⟨⟨.cancelled false, rfl⟩, rfl, rfl, rfl, fun w hw => nomatch hw⟩
  | _ => cases hstep

theorem of_recvPassive (h : s.Ok) :
    s.recvPassive.1.Ok ∧ s.recvPassive.1.surveyid = s.surveyid ∧
      s.recvPassive.1.inprogress = s.inprogress ∧ s.recvPassive.1.tosend = s.tosend := by
  unfold recvPassive
  split_ifs
  · exact ⟨⟨h.phases, h.running⟩, rfl, rfl, rfl⟩
  · exact ⟨h, rfl, rfl, rfl⟩

/-- A survey is sent at once when none is in progress, and otherwise waits for the timer. -/
theorem send_cases (h : s.Ok) (body : Bytes) :
    (s.state = .passive ∧ (s.send body).1.state = .active ∧
        (s.send body).2 = some (putl (nextId s.surveyid) ++ body)) ∨
      ((s.send body).1.state = .cancelling ∧ (s.send body).2 = none) := by
  obtain ⟨state, surveyid, timer, tosend, timedout, aborted⟩ := s
  have hphases := h.phases
  simp only at hphases
  cases hphases with
  | passive => exact .inl ⟨rfl, rfl, rfl⟩
  | _ => exact .inr ⟨rfl, rfl⟩

/-- The worker has the survey that waits sent when it has stopped the timer. -/
theorem task_cases (h : s.Ok) (hstep : s.task = some (s', msg)) :
    (s.state = .cancelling ∧ s'.state = .active ∧ msg = some s.tosend) ∨
      ((s'.state = .cancelling ↔ s.state = .cancelling) ∧ msg = none) := by
  obtain ⟨state, surveyid, timer, tosend, timedout, aborted⟩ := s
  have hphases := h.phases
  simp only at hphases
  cases hphases with
  | passive => cases hstep
  | running => cases hstep
  | cancelled wtimer =>
    cases hstep
    exact .inl ⟨rfl, rfl, rfl⟩
  | started =>
    cases hstep
    exact .inr ⟨by simp, rfl⟩
  | cancelledEarly =>
    cases hstep
    exact .inr ⟨by simp, rfl⟩
  | expired =>
    cases hstep
    exact .inr ⟨by simp, rfl⟩

theorem expire_cases (h : s.Ok) (hstep : s.expire = some (s', msg)) :
    (s'.state = .cancelling ↔ s.state = .cancelling) ∧ msg = none := by
  obtain ⟨state, surveyid, timer, tosend, timedout, aborted⟩ := s
  have hphases := h.phases
  simp only at hphases
  cases hphases with
  | running =>
    cases hstep
    exact ⟨by simp, rfl⟩
  | cancelled wtimer =>
    cases wtimer with
    | false => cases hstep
    | true =>
      cases hstep
      exact ⟨by simp, rfl⟩
  | _ => cases hstep

/-! ## The identifiers -/

/-- The identifier of the `k`-th survey, counted from one. -/
def surveyId (first : UInt32) : ℕ → UInt32
  | 0 => first
  | k + 1 => nextId (surveyId first k)

theorem toNat_nextId (surveyid : UInt32) :
    (nextId surveyid).toNat = 2 ^ 31 + (surveyid.toNat + 1) % 2 ^ 31 := by
  rw [nextId, toNat_or_top, UInt32.toNat_add]
  simp only [UInt32.toNat_one]
  omega

theorem toNat_surveyId (first : UInt32) (k : ℕ) :
    (surveyId first (k + 1)).toNat = 2 ^ 31 + (first.toNat + (k + 1)) % 2 ^ 31 := by
  induction k with
  | zero => rw [surveyId, surveyId, toNat_nextId]
  | succ k ih =>
    rw [surveyId, toNat_nextId, ih]
    omega

/-- The identifiers repeat after `2 ^ 31` surveys and not earlier. -/
theorem surveyId_inj {first : UInt32} {j k : ℕ}
    (h : surveyId first (j + 1) = surveyId first (k + 1)) : j + 1 ≡ k + 1 [MOD 2 ^ 31] := by
  have hnat := congrArg UInt32.toNat h
  rw [toNat_surveyId, toNat_surveyId, Nat.add_left_cancel_iff] at hnat
  exact Nat.ModEq.add_left_cancel' first.toNat hnat

end Surveyor

end NitroCloud.Nanomsg.Survey
