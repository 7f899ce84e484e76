import NitroCloud.Foundations.Weights
import NitroCloud.Pipe.ServerMain

/-!
# When the pipe server stops

The number that the main thread polls is the number of `TaskCounter` objects the tasks have.  A task
has one from its first `StartListen` to the start of its destruction, so the number says nothing of
a client whose connection has not come that far, nor of one whose task is being destroyed.  The main
thread stops the server in time exactly when `HandleAccept` has constructed a `TaskCounter` for each
client launched, none of these is left, and no destructor is under way (`stop_after_all_iff`).
-/

namespace NitroCloud.Pipe

open Machine Weights

/-- A handler that has constructed a `TaskCounter`, and has still to assign it or to destroy the one
that it got in exchange. -/
def holdsCounter : Handler × Place → Bool
  | (_, .assigning) | (_, .releasing) => true
  | _ => false

/-- `HandleAccept` in front of the construction of its `TaskCounter`. -/
def waits : Handler × Place → Bool
  | (.handleAccept, .listening) | (.handleAccept, .constructing) => true
  | _ => false

namespace ServerTask

/-- The `TaskCounter` objects of a task. -/
def counters (task : ServerTask) : ℕ := task.m_taskCounter.toNat + task.calls.countP holdsCounter

/-- The calls of `HandleAccept` that have still to construct a `TaskCounter`. -/
def waiting (task : ServerTask) : ℕ := task.calls.countP waits

/-- The `TaskCounter` objects that `HandleAccept` constructs in an action. -/
def Action.constructions : Action → ℕ
  | .construct .handleAccept => 1
  | _ => 0

/-! ## One task -/

/-- What holds of a task at any time. -/
structure Ok (task : ServerTask) : Prop where
  waiting : task.waiting ≤ 1
  /-- `m_taskCounter` is filled from the first assignment on. -/
  releasing : ∀ handler, (handler, .releasing) ∈ task.calls → task.m_taskCounter = true
  /-- Once `HandleAccept` has constructed a `TaskCounter`, there is one until the destructor. -/
  held : task.waiting = 0 → task.destructing = false → 0 < task.counters
  destructing : task.destructing = true → task.calls = [] ∧ task.reading = 0

theorem ok_new : new.Ok := by
  refine ⟨by decide, ?_, ?_, ?_⟩
  · simp [new]
  · intro hwaiting
    cases hwaiting
  · intro hdestructing
    cases hdestructing

variable {task task' : ServerTask} {handler : Handler} {here there place : Place} {action : Action}
  {change : ℤ}

/-- The handlers at a place are those that were there before, or the one that went on to it. -/
theorem mem_move {other : Handler}
    (h : (other, place) ∈ (task.move handler here there).calls) :
    (other, place) ∈ task.calls ∨ place = there := by
  rcases List.mem_cons.1 h with heq | hmem
  · exact .inr (Prod.ext_iff.1 heq).2
  · exact .inl (List.mem_of_mem_erase hmem)

/-- An action adds to the counter what it adds to the `TaskCounter` objects of the task. -/
theorem counters_step (h : task.step action = some (task', change)) :
    (task'.counters : ℤ) = task.counters + change := by
  cases step_cases h with
  | listen hcall =>
    have hcount := countP_move holdsCounter .constructing hcall
    simp only [counters, move, holdsCounter, Bool.toNat_false] at hcount ⊢
    omega
  | construct hcall =>
    have hcount := countP_move holdsCounter .assigning hcall
    simp only [counters, move, holdsCounter, Bool.toNat_false, Bool.toNat_true] at hcount ⊢
    omega
  | exchange hcall =>
    have hcount := countP_move holdsCounter .releasing hcall
    simp only [counters, move, holdsCounter, Bool.toNat_true] at hcount ⊢
    omega
  | assign hcall hnull =>
    have hcount := countP_move holdsCounter .leaving hcall
    simp only [counters, move, holdsCounter, hnull, Bool.toNat_true, Bool.toNat_false] at hcount ⊢
    omega
  | release hcall =>
    have hcount := countP_move holdsCounter .leaving hcall
    simp only [counters, move, holdsCounter, Bool.toNat_true, Bool.toNat_false] at hcount ⊢
    omega
  | read =>
    split_ifs
    all_goals simp [counters, holdsCounter]
  | respond hcall =>
    have hcount := countP_leave holdsCounter hcall
    simp only [counters, leave, holdsCounter, Bool.toNat_false] at hcount ⊢
    omega
  | readError | write | destruct => simp [counters]
  | destroyCounter _ hheld =>
    simp only [counters, hheld, Bool.toNat_true, Bool.toNat_false]
    omega

/-- An action takes off the calls of `HandleAccept` that wait the one that constructs. -/
theorem waiting_step (h : task.step action = some (task', change)) :
    task'.waiting + action.constructions = task.waiting := by
  cases step_cases h with
  | @listen handler hcall =>
    have hcount := countP_move waits .constructing hcall
    have hsame : waits (handler, .constructing) = waits (handler, .listening) := by
      cases handler <;> rfl
    rw [hsame] at hcount
    simp only [waiting, move, Action.constructions] at hcount ⊢
    omega
  | @construct handler hcall =>
    have hcount := countP_move waits .assigning hcall
    cases handler <;>
      simp only [waiting, move, waits, Action.constructions, Bool.toNat_false, Bool.toNat_true]
        at hcount ⊢ <;> omega
  | exchange hcall =>
    have hcount := countP_move waits .releasing hcall
    simp only [waiting, move, waits, Action.constructions] at hcount ⊢
    omega
  | assign hcall | release hcall =>
    have hcount := countP_move waits .leaving hcall
    simp only [waiting, move, waits, Action.constructions] at hcount ⊢
    omega
  | read => simp [waiting, waits, Action.constructions]
  | respond hcall =>
    have hcount := countP_leave waits hcall
    simp only [waiting, leave, waits, Action.constructions, Bool.toNat_false] at hcount ⊢
    omega
  | readError | write | destruct | destroyCounter => rfl

/-- Handlers at the place `releasing` come from the exchange with a `TaskCounter`, which is left to
the task until its destructor. -/
theorem Ok.releasing_step (hok : task.Ok) (h : task.step action = some (task', change))
    (hcall : (handler, .releasing) ∈ task'.calls) : task'.m_taskCounter = true := by
  cases step_cases h with
  | listen | construct | release => exact (mem_move hcall).elim (hok.releasing handler) nofun
  | exchange _ hheld => exact hheld
  | assign => rfl
  | read =>
    rcases List.mem_cons.1 hcall with heq | hmem
    · split_ifs at heq
      all_goals cases heq
    · exact hok.releasing handler hmem
  | respond => exact hok.releasing handler (List.mem_of_mem_erase hcall)
  | readError | write | destruct => exact hok.releasing handler hcall
  | destroyCounter hdestructing =>
    rw [(hok.destructing hdestructing).1] at hcall
    cases hcall

/-- In the destructor there are no handlers and no reads. -/
theorem Ok.destructing_step (hok : task.Ok) (h : task.step action = some (task', change))
    (hdestructing : task'.destructing = true) : task'.calls = [] ∧ task'.reading = 0 := by
  cases step_cases h with
  | listen hcall | construct hcall | exchange hcall | assign hcall | release hcall
  | respond hcall =>
    rw [(hok.destructing hdestructing).1] at hcall
    cases hcall
  | readError hreading | read hreading =>
    have hzero := (hok.destructing hdestructing).2
    omega
  | write => exact hok.destructing hdestructing
  | destruct hlast => exact ⟨hlast.2.1, hlast.2.2.1⟩
  | destroyCounter hbefore => exact hok.destructing hbefore

theorem Ok.held_step (hok : task.Ok) (h : task.step action = some (task', change))
    (hwaiting : task'.waiting = 0) (hdestructing : task'.destructing = false) :
    0 < task'.counters := by
  have hcounters := counters_step h
  have hwaits := waiting_step h
  rw [hwaiting, Nat.zero_add] at hwaits
  cases step_cases h with
  | construct => omega
  | release hcall =>
    have hheld : task.m_taskCounter = true := hok.releasing _ hcall
    simp only [counters, move, hheld, Bool.toNat_true]
    omega
  | listen | exchange | assign | readError | read | respond | write =>
    have hheld := hok.held hwaits.symm hdestructing
    omega
  | destruct => cases hdestructing
  | destroyCounter hbefore => cases hbefore.symm.trans hdestructing

theorem Ok.step (hok : task.Ok) (h : task.step action = some (task', change)) : task'.Ok where
  waiting := by
    have hwaits := waiting_step h
    have hone := hok.waiting
    omega
  releasing _ := hok.releasing_step h
  held := hok.held_step h
  destructing := hok.destructing_step h

/-- `HandleAccept` returns. -/
theorem Ok.leave (hok : task.Ok) (h : (handler, .leaving) ∈ task.calls) :
    (task.leave handler).Ok ∧ (task.leave handler).waiting = task.waiting ∧
      (task.leave handler).counters = task.counters := by
  have hwaits : (task.leave handler).waiting = task.waiting := by
    have hcount := countP_leave waits h
    simpa [ServerTask.waiting, waits] using hcount
  have hcounters : (task.leave handler).counters = task.counters := by
    have hcount := countP_leave holdsCounter h
    simp only [holdsCounter, Bool.toNat_false, Nat.add_zero] at hcount
    rw [counters, hcount]
    rfl
  refine ⟨⟨?_, ?_, ?_, ?_⟩, hwaits, hcounters⟩
  · rw [hwaits]
    exact hok.waiting
  · intro other hcall
    exact hok.releasing other (List.mem_of_mem_erase hcall)
  · rw [hwaits, hcounters]
    exact hok.held
  · intro hdestructing
    rw [(hok.destructing hdestructing).1] at h
    cases h

end ServerTask

/-! ## All clients -/

namespace Client

/-- The `TaskCounter` objects of the task of a client. -/
def counters : Client → ℕ
  | .accepted task => task.counters
  | _ => 0

/-- The `TaskCounter` objects that `HandleAccept` has constructed for a client. -/
def constructed : Client → ℕ
  | .accepted task => 1 - task.waiting
  | .destroyed => 1
  | _ => 0

/-- `~ServerTask` of the task of a client has not returned yet. -/
def Destructing : Client → Prop
  | .accepted task => task.destructing = true
  | _ => False

/-- What holds of the task of a client. -/
def Ok : Client → Prop
  | .accepted task => task.Ok
  | _ => True

theorem constructed_le_one (client : Client) : client.constructed ≤ 1 := by
  cases client with
  | accepted task => exact Nat.sub_le 1 task.waiting
  | _ => simp [constructed]

/-- A client is gone exactly when `HandleAccept` has constructed a `TaskCounter` for it, none is
left, and the destructor of its task is not under way. -/
theorem Ok.eq_destroyed_iff {client : Client} (hok : client.Ok) :
    client = .destroyed ↔
      client.counters = 0 ∧ client.constructed = 1 ∧ ¬ client.Destructing := by
  cases client with
  | accepted task =>
    simp only [reduceCtorEq, false_iff, counters, constructed, Destructing]
    rintro ⟨hcounters, hconstructed, hdestructing⟩
    have hheld := ServerTask.Ok.held hok (by omega) (by simpa using hdestructing)
    omega
  | _ => simp [counters, constructed, Destructing]

end Client

namespace System

/-- The `TaskCounter` objects that `HandleAccept` constructs in an event. -/
def Event.constructions : Event → ℕ
  | .task _ action => action.constructions
  | _ => 0

/-- The `TaskCounter` objects that `HandleAccept` has constructed in a run. -/
def constructions (before : List Event) : ℕ := total Event.constructions before

/-- What holds after the events of a run. -/
structure Counted (before : List Event) (s : System) : Prop where
  counter : s.m_counter = total Client.counters s.clients
  constructed : constructions before = total Client.constructed s.clients
  ok : ∀ client ∈ s.clients, client.Ok

theorem counted_new : Counted [] new := by
  constructor <;> simp [new, constructions]

namespace Counted

variable {before : List Event} {s s' : System} {e : Event} {i : ℕ} {old client : Client}

theorem constructions_concat : constructions (before ++ [e]) = constructions before +
    e.constructions := total_concat e

/-- A step that changes no client. -/
theorem same (h : Counted before s) (hclients : s'.clients = s.clients)
    (hcounter : s'.m_counter = s.m_counter) (he : e.constructions = 0) :
    Counted (before ++ [e]) s' := by
  refine ⟨?_, ?_, ?_⟩
  · rw [hcounter, hclients]
    exact h.counter
  · rw [constructions_concat, he, hclients]
    exact h.constructed
  · rw [hclients]
    exact h.ok

/-- A step that replaces one client. -/
theorem set (h : Counted before s) (hold : s.clients[i]? = some old)
    (hclients : s'.clients = s.clients.set i client)
    (hcounter : s'.m_counter + old.counters = s.m_counter + client.counters)
    (hconstructed : client.constructed = old.constructed + e.constructions) (hok : client.Ok) :
    Counted (before ++ [e]) s' := by
  have hcounters := total_set (w := Client.counters) (b := client) hold
  have hconstructions := total_set (w := Client.constructed) (b := client) hold
  refine ⟨?_, ?_, ?_⟩
  · have hbefore := h.counter
    rw [hclients]
    omega
  · have hbefore := h.constructed
    rw [constructions_concat, hclients]
    omega
  · intro other hother
    rw [hclients] at hother
    rcases List.mem_or_eq_of_mem_set hother with hmem | heq
    · exact h.ok other hmem
    · exact heq ▸ hok

/-- A step that adds a client. -/
theorem concat (h : Counted before s) (hclients : s'.clients = s.clients ++ [.started])
    (hcounter : s'.m_counter = s.m_counter) (he : e.constructions = 0) :
    Counted (before ++ [e]) s' := by
  refine ⟨?_, ?_, ?_⟩
  · rw [hcounter, hclients, total_concat]
    exact h.counter
  · rw [constructions_concat, he, hclients, total_concat]
    exact h.constructed
  · intro client hclient
    rw [hclients, List.mem_append, List.mem_singleton] at hclient
    rcases hclient with hmem | rfl
    · exact h.ok client hmem
    · trivial

theorem launch {launched : Bool} (h : Counted before s)
    (hstep : step s (.launch launched) = some s') :
    Counted (before ++ [.launch launched]) s' := by
  simp only [step] at hstep
  split at hstep
  · cases launched with
    | false =>
      cases hstep
      exact h.same rfl rfl rfl
    | true =>
      cases hstep
      exact h.concat rfl rfl rfl
  · cases hstep

theorem accept (h : Counted before s) (hstep : step s (.accept i) = some s') :
    Counted (before ++ [.accept i]) s' := by
  simp only [step] at hstep
  split_ifs at hstep with hold
  · cases hstep
    exact h.set hold.2 rfl rfl rfl trivial
  · cases hstep
    exact h.set hold.2 rfl rfl rfl ServerTask.ok_new

theorem acceptNext (h : Counted before s) (hstep : step s (.acceptNext i) = some s') :
    Counted (before ++ [.acceptNext i]) s' := by
  simp only [step] at hstep
  split at hstep
  next task hold =>
    split_ifs at hstep with hcall
    cases hstep
    have hok : task.Ok := h.ok _ (List.mem_of_getElem? hold)
    obtain ⟨hleft, hwaiting, hcounters⟩ := hok.leave hcall.2
    refine h.set hold rfl ?_ ?_ hleft
    · simp [Client.counters, hcounters, setClient]
    · simp [Client.constructed, hwaiting, Event.constructions]
  next => cases hstep

theorem task {action : ServerTask.Action} (h : Counted before s)
    (hstep : step s (.task i action) = some s') : Counted (before ++ [.task i action]) s' := by
  simp only [step] at hstep
  split at hstep
  next task hold =>
    obtain ⟨⟨task', change⟩, htask, rfl⟩ := Option.map_eq_some_iff.1 hstep
    have hok : task.Ok := h.ok _ (List.mem_of_getElem? hold)
    refine h.set hold rfl ?_ ?_ (hok.step htask)
    · have hcounters := ServerTask.counters_step htask
      simp only [Client.counters]
      omega
    · have hwaits := ServerTask.waiting_step htask
      have hone := hok.waiting
      simp only [Client.constructed, Event.constructions]
      omega
  next => cases hstep

theorem destroyed (h : Counted before s) (hstep : step s (.destroyed i) = some s') :
    Counted (before ++ [.destroyed i]) s' := by
  simp only [step] at hstep
  split at hstep
  next task hold =>
    split_ifs at hstep with hlast
    cases hstep
    have hok : task.Ok := h.ok _ (List.mem_of_getElem? hold)
    have hcalls := (hok.destructing hlast.1).1
    refine h.set hold rfl ?_ ?_ trivial
    · simp [Client.counters, ServerTask.counters, hcalls, hlast.2, setClient]
    · simp [Client.constructed, ServerTask.waiting, hcalls, Event.constructions]
  next => cases hstep

theorem step (h : Counted before s) (hstep : System.step s e = some s') :
    Counted (before ++ [e]) s' := by
  cases e with
  | launch launched => exact h.launch hstep
  | accept i => exact h.accept hstep
  | acceptNext i => exact h.acceptNext hstep
  | task i action => exact h.task hstep
  | destroyed i => exact h.destroyed hstep
  | connect i =>
    simp only [System.step] at hstep
    split_ifs at hstep with hold
    cases hstep
    exact h.set hold rfl rfl rfl trivial
  | run | acceptError | poll | stop =>
    simp only [System.step] at hstep
    split_ifs at hstep
    all_goals cases hstep
    all_goals exact h.same rfl rfl rfl

end Counted

/-! ## The two conditions -/

/-- `HandleAccept` has constructed a `TaskCounter` for each client launched, none of them is left,
and no destructor of a task is under way. -/
structure Served (before : List Event) (s : System) : Prop where
  counter : ¬ 0 < s.m_counter
  constructed : constructions before = s.clients.length
  destructed : ∀ client ∈ s.clients, ¬ client.Destructing

/-- The events of a run before which `Server::Stop` is called only when the task of each client
launched has been destroyed. -/
def StopAfterAll (_ : List Event) (s : System) (e : Event) : Prop :=
  e = .stop → s.main = .stopping → ∀ client ∈ s.clients, client = .destroyed

/-- The events of a run before which all clients have been served when `Server::Stop` is called. -/
def ServedBeforeStop (before : List Event) (s : System) (e : Event) : Prop :=
  e = .stop → s.main = .stopping → Served before s

/-- The events of a run before which all clients have been served when the main thread reads that
there is no `TaskCounter`. -/
def ServedBeforePoll (before : List Event) (s : System) (e : Event) : Prop :=
  e = .poll → s.main = .polling → ¬ 0 < s.m_counter → Served before s

theorem Counted.served_iff {before : List Event} {s : System} (h : Counted before s) :
    Served before s ↔ ∀ client ∈ s.clients, client = .destroyed := by
  have hzero : ¬ 0 < s.m_counter ↔ ∀ client ∈ s.clients, client.counters = 0 := by
    rw [← total_eq_zero_iff, h.counter]
    omega
  have hall : constructions before = s.clients.length ↔
      ∀ client ∈ s.clients, client.constructed = 1 := by
    rw [h.constructed]
    exact total_eq_length_iff Client.constructed_le_one
  constructor
  · intro hserved client hclient
    exact (h.ok client hclient).eq_destroyed_iff.2 ⟨hzero.1 hserved.counter client hclient,
      hall.1 hserved.constructed client hclient, hserved.destructed client hclient⟩
  · intro hgone
    have hparts (client : Client) (hclient : client ∈ s.clients) :=
      (h.ok client hclient).eq_destroyed_iff.1 (hgone client hclient)
    exact ⟨hzero.2 fun client hclient => (hparts client hclient).1,
      hall.2 fun client hclient => (hparts client hclient).2.1,
      fun client hclient => (hparts client hclient).2.2⟩

section Stopping

variable {s s' : System} {e : Event}

/-- The main thread goes on to stop the server when it reads that there is no `TaskCounter`. -/
theorem main_stopping (hstep : step s e = some s') (hstopping : s'.main = .stopping) :
    s.main = .stopping ∨
      (e = .poll ∧ s.main = .polling ∧ ¬ 0 < s.m_counter ∧ s'.clients = s.clients) := by
  cases e with
  | launch launched =>
    simp only [step] at hstep
    split at hstep
    · cases launched with
      | false =>
        cases hstep
        cases hstopping
      | true =>
        cases hstep
        simp only at hstopping
        split_ifs at hstopping
    · cases hstep
  | poll =>
    simp only [step, Option.ite_none_right_eq_some, Option.some.injEq] at hstep
    obtain ⟨hpolling, rfl⟩ := hstep
    refine .inr ⟨rfl, hpolling, ?_, rfl⟩
    intro hpos
    simp [hpos] at hstopping
  | stop =>
    simp only [step, Option.ite_none_right_eq_some, Option.some.injEq] at hstep
    obtain ⟨-, rfl⟩ := hstep
    cases hstopping
  | task i action =>
    simp only [step] at hstep
    split at hstep
    · obtain ⟨⟨task', change⟩, -, rfl⟩ := Option.map_eq_some_iff.1 hstep
      exact .inl hstopping
    · cases hstep
  | run | connect i | acceptError =>
    simp only [step, Option.ite_none_right_eq_some, Option.some.injEq] at hstep
    obtain ⟨-, rfl⟩ := hstep
    exact .inl hstopping
  | accept i =>
    simp only [step] at hstep
    split_ifs at hstep
    all_goals
      cases hstep
      exact .inl hstopping
  | acceptNext i | destroyed i =>
    simp only [step] at hstep
    split at hstep
    · simp only [Option.ite_none_right_eq_some, Option.some.injEq] at hstep
      obtain ⟨-, rfl⟩ := hstep
      exact .inl hstopping
    · cases hstep

/-- Clients that are gone stay so, and there are no others while the main thread is to stop. -/
theorem clients_of_destroyed (hstep : step s e = some s') (hmain : s.main = .stopping)
    (hgone : ∀ client ∈ s.clients, client = .destroyed) : s'.clients = s.clients := by
  have hclient {i : ℕ} {client : Client} (h : s.clients[i]? = some client) :
      client = .destroyed := hgone client (List.mem_of_getElem? h)
  cases e with
  | launch launched =>
    simp only [step, hmain] at hstep
    cases hstep
  | connect i =>
    simp only [step, Option.ite_none_right_eq_some] at hstep
    cases hclient hstep.1
  | accept i =>
    simp only [step, Option.ite_none_right_eq_some] at hstep
    cases hclient hstep.1.2
  | acceptNext i | task i action | destroyed i =>
    simp only [step] at hstep
    split at hstep
    next task hold => cases hclient hold
    next => cases hstep
  | run | acceptError | poll | stop =>
    simp only [step, Option.ite_none_right_eq_some, Option.some.injEq] at hstep
    obtain ⟨-, rfl⟩ := hstep
    rfl

end Stopping

/-- When all clients have been served at the poll, they still are when the server is stopped. -/
theorem stopAfterAll_of_poll {es : List Event} (h : Along step new ServedBeforePoll es) :
    Along step new StopAfterAll es := by
  refine h.imp (fun before s => Counted before s ∧
    (s.main = .stopping → ∀ client ∈ s.clients, client = .destroyed)) ⟨counted_new, nofun⟩ ?_ ?_
  · rintro before s e s' ⟨hcounted, hstopping⟩ hpoll hstep
    refine ⟨hcounted.step hstep, fun hmain => ?_⟩
    rcases main_stopping hstep hmain with hbefore | ⟨rfl, hpolling, hzero, hclients⟩
    · rw [clients_of_destroyed hstep hbefore (hstopping hbefore)]
      exact hstopping hbefore
    · rw [hclients]
      exact hcounted.served_iff.1 (hpoll rfl hpolling hzero)
  · rintro before s e ⟨-, hstopping⟩ - - hmain
    exact hstopping hmain

/-- In every run, `Server::Stop` is called only after the task of each client launched has been
destroyed, exactly when in front of the call `HandleAccept` has constructed a `TaskCounter` for each
of them, none of these is left, and no destructor is under way.  It is enough that all this holds
when the main thread reads that there is no `TaskCounter`. -/
theorem stop_after_all_iff (es : List Event) :
    (Along step new StopAfterAll es ↔ Along step new ServedBeforeStop es) ∧
      (Along step new ServedBeforePoll es → Along step new StopAfterAll es) := by
  refine ⟨?_, stopAfterAll_of_poll⟩
  apply along_congr Counted counted_new
  · intro before s e s' h hstep
    exact h.step hstep
  · intro before s e h
    exact forall₂_congr fun _ _ => h.served_iff.symm

/-- The five processes are launched, and none of them has connected yet. -/
def launches : List Event :=
  [.run, .launch true, .launch true, .launch true, .launch true, .launch true]

/-- The main thread polls, and stops the server, before any of its clients has connected. -/
theorem stop_before_connect :
    run step new (launches ++ [.poll, .stop]) =
        some ⟨.stopped, .accepting, 0, List.replicate 5 .started⟩ ∧
      ¬ Along step new StopAfterAll (launches ++ [.poll, .stop]) := by
  refine ⟨by decide, fun h => ?_⟩
  have hrun : run step new (launches ++ [.poll]) =
      some ⟨.stopping, .accepting, 0, List.replicate 5 .started⟩ := by
    decide
  have hdestroyed := h (launches ++ [.poll]) .stop [] _ (by simp) hrun rfl rfl .started (by decide)
  cases hdestroyed

/-- The connection of a client is accepted, its read fails, and its task is destroyed. -/
def serving (i : ℕ) : List Event :=
  [.connect i, .accept i, .task i (.listen .handleAccept), .task i (.read true),
    .task i (.construct .handleAccept), .task i (.assign .handleAccept), .acceptNext i,
    .task i .destruct, .task i .destroyCounter, .destroyed i]

/-- A poll after each client was served. -/
example :
    run step new (launches ++ (List.range 5).flatMap serving ++ [.poll, .stop]) =
      some ⟨.stopped, .accepting, 0, List.replicate 5 .destroyed⟩ := by
  decide

end System

end NitroCloud.Pipe
