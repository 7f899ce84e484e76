import NitroCloud.Task.Actions

/-!
# The logs of the tasks

`OnFinished` flushes and closes the file of the task, then takes the task out of the registry, then
writes to the console; so when the main thread sees the registry empty, every file is complete, and
the console may still lack the last line of each task (`logs_complete`).  The name of the file is
made from the task id, which is a hash of the thread's id, so tasks may share a name; the files are
still whole as long as no task creates a file that another one has open.
-/

namespace NitroCloud

open Bytes Machine Stdio

namespace Logs

/-! ## The threads -/

/-- The collector of a task after the actions that its thread has done: it has written, or has still
to write, what it was given, and is closed when the thread has closed it. -/
def Collected (lineSeparator : Bytes) (job : Job) (done : List Action) :
    Option MessageCollector → Prop
  | none => done = []
  | some w => done ≠ [] ∧ w.path = job.path ∧ w.written ++ w.buffer = logOf lineSeparator done ∧
    (w.closed = true ↔ .finished ∈ done) ∧ (w.closed = true → w.buffer = [])

/-- An action that gives the collector nothing. -/
theorem Collected.concat {lineSeparator : Bytes} {job : Job} {done : List Action}
    {w : MessageCollector} (h : Collected lineSeparator job done (some w)) {a : Action}
    (hlog : logOf lineSeparator [a] = []) (ha : a ≠ .finished) :
    Collected lineSeparator job (done ++ [a]) (some w) := by
  obtain ⟨-, hpath, htext, hclosed, hbuffer⟩ := h
  refine ⟨by simp, hpath, ?_, ?_, hbuffer⟩
  · rw [logOf_concat, hlog, List.append_nil, htext]
  · rw [hclosed, List.mem_append, List.mem_singleton]
    simp [ha.symm]

/-- A collector is open while its thread has to do more than leave the registry and print. -/
theorem Collected.isOpen {lineSeparator : Bytes} {job : Job} {done todo : List Action} {a : Action}
    {w : MessageCollector} (h : Collected lineSeparator job done (some w))
    (hbody : done ++ a :: todo = job.body) (ha : a ≠ .remove) (ha' : ∀ line, a ≠ .println line) :
    w.closed = false := by
  rw [← Bool.not_eq_true, h.2.2.2.1]
  intro hfinished
  rcases next_of_finished hbody hfinished with ⟨hremove, -⟩ | ⟨line, hprintln⟩
  · exact ha hremove
  · exact ha' line hprintln

/-- A collector that writes to its file still holds the text. -/
theorem Collected.write {lineSeparator : Bytes} {job : Job} {done : List Action}
    {w : MessageCollector} (h : Collected lineSeparator job done (some w))
    (hopen : w.closed = false) (n : ℕ) :
    Collected lineSeparator job done (some { w.write n with closed := false }) := by
  obtain ⟨hne, hpath, htext, hclosed, -⟩ := h
  refine ⟨hne, hpath, ?_, ?_, fun h => by cases h⟩
  · rw [← htext, MessageCollector.write, List.append_assoc, List.take_append_drop]
  · rw [← hclosed, hopen]

namespace State

variable {ι : Type} [DecidableEq ι]

/-- What holds of the threads, the registry and the console. -/
structure Ok (lineSeparator : Bytes) (jobs : ι → Job) (s : State ι) : Prop where
  body : ∀ i done todo, s.threads i = .running done todo → done ++ todo = (jobs i).body
  collected : ∀ i, Collected lineSeparator (jobs i) (s.threads i).done (s.messageCollector i)
  nodup : s.taskCollection.Nodup
  mem : ∀ i, i ∈ s.taskCollection ↔ s.registered i = true ∧ .remove ∉ (s.threads i).done
  ran : ∀ i, s.threads i ≠ .created → s.registered i = true
  console : ∀ i, (s.console.filter (·.1 = i)).map Prod.snd = linesOf (s.threads i).done
  launched : s.main ≠ .launching → ∀ i ∈ s.taskCollection, s.threads i ≠ .created
  exited : s.main = .exited → s.taskCollection = []

variable {lineSeparator : Bytes} {jobs : ι → Job} {s s' : State ι} {e : Event ι}

theorem ok_new (files : Bytes → Option Bytes) : (new files : State ι).Ok lineSeparator jobs where
  body i done todo h := by cases h
  collected i := rfl
  nodup := List.nodup_nil
  mem i := by simp [new]
  ran i h := absurd rfl h
  console i := rfl
  launched h := absurd rfl h
  exited h := by cases h

/-! ### The actions -/

theorem act_registered (s : State ι) (lineSeparator : Bytes) (i : ι) (a : Action) :
    (s.act lineSeparator i a).registered = s.registered ∧
      (s.act lineSeparator i a).main = s.main ∧
      (s.act lineSeparator i a).threads = s.threads := by
  cases a with
  | create path | collect message | finished =>
    simp only [act]
    split <;> exact ⟨rfl, rfl, rfl⟩
  | remove | println line => exact ⟨rfl, rfl, rfl⟩

theorem act_terminated (s : State ι) (lineSeparator : Bytes) (i : ι) (a : Action) :
    (s.act lineSeparator i a).terminated = s.terminated := by
  cases a with
  | create path | collect message | finished =>
    simp only [act]
    split <;> rfl
  | remove | println line => rfl

theorem act_taskCollection (s : State ι) (lineSeparator : Bytes) (i : ι) (a : Action) :
    (s.act lineSeparator i a).taskCollection =
      if a = .remove then Registry.onFinished (s.registered i) s.taskCollection i
      else s.taskCollection := by
  cases a with
  | create path | collect message | finished =>
    simp only [act]
    split <;> rfl
  | remove | println line => rfl

theorem act_console (s : State ι) (lineSeparator : Bytes) (i : ι) (a : Action) :
    (s.act lineSeparator i a).console = s.console ++ (linesOf [a]).map fun line => (i, line) := by
  cases a with
  | create path | collect message | finished =>
    simp only [act]
    split <;> simp [linesOf, writeFile]
  | remove => simp [act, linesOf]
  | println line => rfl

theorem act_messageCollector_ne {i j : ι} (hj : j ≠ i) (a : Action) :
    (s.act lineSeparator i a).messageCollector j = s.messageCollector j := by
  cases a with
  | create path | collect message | finished =>
    simp only [act]
    split <;> simp [writeFile, hj]
  | remove | println line => rfl

/-- An action of a thread leaves its collector as the actions done say. -/
theorem act_collected {i : ι} {done todo : List Action} {a : Action}
    (hbody : done ++ a :: todo = (jobs i).body)
    (h : Collected lineSeparator (jobs i) done (s.messageCollector i)) :
    Collected lineSeparator (jobs i) (done ++ [a])
      ((s.act lineSeparator i a).messageCollector i) := by
  rcases hw : s.messageCollector i with _ | w
  · rw [hw] at h
    obtain rfl : done = [] := h
    obtain rfl := create_of_nil hbody
    simp only [act, hw, Function.update_self]
    refine ⟨by simp, rfl, rfl, by simp, fun hclosed => by cases hclosed⟩
  · rw [hw] at h
    cases a with
    | create path =>
      simp only [act, hw]
      exact h.concat rfl (by simp)
    | collect message =>
      have hopen := h.isOpen hbody (by simp) (by simp)
      obtain ⟨-, hpath, htext, hclosed, -⟩ := h
      simp only [act, hw, Function.update_self, MessageCollector.collect, hopen, Bool.false_eq_true,
        if_false]
      refine ⟨by simp, hpath, ?_, ?_, by simp⟩
      · rw [logOf_concat, ← htext]
        simp [logOf]
      · simpa [hopen] using hclosed
    | finished =>
      obtain ⟨-, hpath, htext, -, -⟩ := h
      simp only [act, hw, writeFile, Function.update_self, MessageCollector.write]
      refine ⟨by simp, hpath, ?_, by simp, by simp⟩
      rw [logOf_concat, ← htext]
      simp [logOf]
    | remove =>
      simp only [act, hw]
      exact h.concat rfl (by simp)
    | println line =>
      simp only [act, hw]
      exact h.concat rfl (by simp)

theorem stepAlive_of_step (h : step lineSeparator jobs s e = some s') :
    stepAlive lineSeparator jobs s e = some s' := by
  rw [step] at h
  split_ifs at h
  exact h

theorem Ok.register {i : ι} (hok : s.Ok lineSeparator jobs)
    (h : stepAlive lineSeparator jobs s (.register i) = some s') : s'.Ok lineSeparator jobs := by
  simp only [stepAlive, Option.ite_none_right_eq_some, Option.some.injEq] at h
  obtain ⟨⟨hmain, hregistered⟩, rfl⟩ := h
  have hcreated : s.threads i = .created := by
    by_contra hthread
    rw [hok.ran i hthread] at hregistered
    cases hregistered
  refine ⟨hok.body, hok.collected, Registry.nodup_register hok.nodup, ?_, ?_, hok.console, ?_, ?_⟩
  · intro j
    rw [Registry.mem_register, hok.mem]
    by_cases hj : j = i
    · subst hj
      simp [hcreated, Thread.done]
    · simp [hj]
  · intro j hthread
    by_cases hj : j = i
    · simp [hj]
    · simpa [hj] using hok.ran j hthread
  · exact fun hlaunched => absurd hmain hlaunched
  · intro hexited
    rw [hmain] at hexited
    cases hexited

/-- The thread of a task comes to another place with no action done. -/
theorem Ok.setThread {i : ι} {thread : Thread} (hok : s.Ok lineSeparator jobs)
    (hdone : thread.done = (s.threads i).done)
    (hbody : ∀ done todo, thread = .running done todo → done ++ todo = (jobs i).body)
    (hregistered : s.registered i = true) (hthread : thread ≠ .created) :
    { s with threads := Function.update s.threads i thread }.Ok lineSeparator jobs := by
  have hsame (j : ι) : (Function.update s.threads i thread j).done = (s.threads j).done := by
    by_cases hj : j = i
    · subst hj
      simp [hdone]
    · simp [hj]
  constructor
  · intro j done todo hrunning
    by_cases hj : j = i
    · subst hj
      exact hbody done todo (by simpa using hrunning)
    · exact hok.body j done todo (by simpa [hj] using hrunning)
  · exact fun j => by simpa only [hsame] using hok.collected j
  · exact hok.nodup
  · exact fun j => by simpa only [hsame] using hok.mem j
  · intro j hran
    by_cases hj : j = i
    · rw [hj]
      exact hregistered
    · exact hok.ran j (by simpa [hj] using hran)
  · exact fun j => by simpa only [hsame] using hok.console j
  · intro hlaunched j hmem
    by_cases hj : j = i
    · simpa [hj] using hthread
    · simpa [hj] using hok.launched hlaunched j hmem
  · exact hok.exited

theorem Ok.run {i : ι} (hok : s.Ok lineSeparator jobs)
    (h : stepAlive lineSeparator jobs s (.run i) = some s') : s'.Ok lineSeparator jobs := by
  simp only [stepAlive, Option.ite_none_right_eq_some, Option.some.injEq] at h
  obtain ⟨⟨-, hregistered, hcreated⟩, rfl⟩ := h
  refine hok.setThread ?_ ?_ hregistered nofun
  · rw [hcreated]
    rfl
  · rintro _ _ ⟨⟩
    exact List.nil_append _

theorem Ok.act {i : ι} (hok : s.Ok lineSeparator jobs)
    (h : stepAlive lineSeparator jobs s (.act i) = some s') : s'.Ok lineSeparator jobs := by
  simp only [stepAlive] at h
  split at h
  case h_2 => cases h
  case h_1 done a todo hthread =>
    cases h
    have hbody := hok.body i _ _ hthread
    have hcollected := hok.collected i
    have hconsole := hok.console i
    rw [hthread] at hcollected hconsole
    obtain ⟨hregistered, hmain, -⟩ := act_registered s lineSeparator i a
    have hleaves (j : ι) : j ∈ (s.act lineSeparator i a).taskCollection ↔
        j ∈ s.taskCollection ∧ (a = .remove → j ≠ i) := by
      rw [act_taskCollection]
      split_ifs with ha
      · rw [Registry.mem_onFinished hok.nodup fun _ => hok.ran i (by simp [hthread])]
        simp [ha]
      · simp [ha]
    constructor
    · intro j done' todo' hj
      by_cases hji : j = i
      · subst hji
        simp only [Function.update_self, Thread.running.injEq] at hj
        rw [← hj.1, ← hj.2, List.append_assoc]
        exact hbody
      · exact hok.body j done' todo' (by simpa [hji] using hj)
    · intro j
      by_cases hji : j = i
      · subst hji
        simp only [Function.update_self]
        exact act_collected hbody hcollected
      · simp only [Function.update_of_ne hji, act_messageCollector_ne hji]
        exact hok.collected j
    · rw [act_taskCollection]
      split_ifs
      · exact Registry.nodup_onFinished hok.nodup _
      · exact hok.nodup
    · intro j
      rw [hleaves, hok.mem]
      by_cases hji : j = i
      · subst hji
        simp only [Function.update_self, hregistered, hthread, Thread.done, List.mem_append,
          List.mem_singleton]
        grind
      · simp [hji, hregistered]
    · intro j hj
      simp only [hregistered]
      by_cases hji : j = i
      · subst hji
        exact hok.ran j (by simp [hthread])
      · exact hok.ran j (by simpa [hji] using hj)
    · intro j
      simp only [act_console, List.filter_append, List.map_append]
      by_cases hji : j = i
      · subst hji
        simp only [Function.update_self, Thread.done]
        rw [linesOf_concat, hconsole]
        simp [Thread.done, List.filter_map, Function.comp_def]
      · simp only [Function.update_of_ne hji, hok.console j]
        simp [List.filter_map, Function.comp_def, Ne.symm hji]
    · intro hlaunched j hj
      by_cases hji : j = i
      · simp [hji]
      · simpa [hji] using hok.launched (hmain ▸ hlaunched) j ((hleaves j).1 hj).1
    · intro hexited
      refine List.eq_nil_iff_forall_not_mem.2 fun j hj => ?_
      have hnil := hok.exited (hmain.symm.trans hexited)
      exact absurd ((hleaves j).1 hj).1 (by simp [hnil])

theorem Ok.openFails {i : ι} (hok : s.Ok lineSeparator jobs)
    (h : stepAlive lineSeparator jobs s (.openFails i) = some s') : s'.Ok lineSeparator jobs := by
  simp only [stepAlive] at h
  split at h
  case h_2 => cases h
  case h_1 done path todo hthread hnone =>
    cases h
    have hcollected := hok.collected i
    rw [hnone, hthread] at hcollected
    obtain rfl : done = [] := hcollected
    refine hok.setThread ?_ nofun (hok.ran i (by simp [hthread])) nofun
    rw [hthread]
    rfl

theorem Ok.step (hok : s.Ok lineSeparator jobs) (h : step lineSeparator jobs s e = some s') :
    s'.Ok lineSeparator jobs := by
  replace h := stepAlive_of_step h
  cases e with
  | register i => exact hok.register h
  | run i => exact hok.run h
  | act i => exact hok.act h
  | openFails i => exact hok.openFails h
  | throws i =>
    simp only [stepAlive, Option.ite_none_right_eq_some, Option.some.injEq] at h
    obtain ⟨-, rfl⟩ := h
    exact ⟨hok.body, hok.collected, hok.nodup, hok.mem, hok.ran, hok.console, hok.launched,
      hok.exited⟩
  | launched =>
    simp only [stepAlive, Option.ite_none_right_eq_some, Option.some.injEq] at h
    obtain ⟨⟨hmain, hlaunched⟩, rfl⟩ := h
    exact ⟨hok.body, hok.collected, hok.nodup, hok.mem, hok.ran, hok.console, fun _ => hlaunched,
      fun hexited => by cases hexited⟩
  | flush i n =>
    simp only [stepAlive] at h
    split at h
    case h_2 => cases h
    case h_1 w hw =>
      simp only [Option.ite_none_right_eq_some, Option.some.injEq] at h
      obtain ⟨⟨hopen, -⟩, rfl⟩ := h
      refine ⟨hok.body, ?_, hok.nodup, hok.mem, hok.ran, hok.console, hok.launched, hok.exited⟩
      intro j
      have hcollected := hok.collected j
      by_cases hj : j = i
      · subst hj
        rw [hw] at hcollected
        simp only [writeFile, Function.update_self]
        exact hcollected.write hopen n
      · simpa only [writeFile, Function.update_of_ne hj] using hcollected
  | poll =>
    simp only [stepAlive, Option.ite_none_right_eq_some, Option.some.injEq] at h
    obtain ⟨hmain, rfl⟩ := h
    split_ifs with hempty
    · exact ⟨hok.body, hok.collected, hok.nodup, hok.mem, hok.ran, hok.console,
        fun _ => hok.launched (by simp [hmain]), fun _ => List.isEmpty_iff.1 hempty⟩
    · exact hok

/-! ## The files -/

/-- No task creates a file that another one has open. -/
def Fresh (_ : List (Event ι)) (s : State ι) (e : Event ι) : Prop :=
  ∀ i done path todo, e = .act i → s.threads i = .running done (.create path :: todo) →
    s.messageCollector i = none →
      ∀ j w, j ≠ i → s.messageCollector j = some w → w.path = path → w.closed = true

/-- A file is what one of the collectors for it has written, and that is the one that has it open
when there is one; all other files are as they were. -/
structure FilesOk (files : Bytes → Option Bytes) (s : State ι) : Prop where
  owner : ∀ i w, s.messageCollector i = some w →
    ∃ j w', s.messageCollector j = some w' ∧ w'.path = w.path ∧
      s.files w.path = some w'.written ∧ (w.closed = false → j = i)
  single : ∀ i j w w', s.messageCollector i = some w → s.messageCollector j = some w' →
    w.closed = false → w'.closed = false → w.path = w'.path → i = j
  kept : ∀ path, (∀ i w, s.messageCollector i = some w → w.path ≠ path) →
    s.files path = files path

variable {files : Bytes → Option Bytes}

omit [DecidableEq ι] in
theorem filesOk_new (files : Bytes → Option Bytes) : (new files : State ι).FilesOk files where
  owner i w h := by cases h
  single i j w w' h := by cases h
  kept path _ := rfl

omit [DecidableEq ι] in
theorem FilesOk.frame (h : s.FilesOk files) (hfiles : s'.files = s.files)
    (hcollector : s'.messageCollector = s.messageCollector) : s'.FilesOk files := by
  constructor
  · rw [hfiles, hcollector]
    exact h.owner
  · rw [hcollector]
    exact h.single
  · rw [hfiles, hcollector]
    exact h.kept

/-- The collector of a task changes, and its file with it, while no other one has the file open. -/
theorem FilesOk.update {i : ι} {v : MessageCollector} (h : s.FilesOk files)
    (hothers : ∀ j w, j ≠ i → s.messageCollector j = some w → w.path = v.path → w.closed = true)
    (hsame : ∀ w, s.messageCollector i = some w → w.path = v.path)
    (hfiles : s'.files = Function.update s.files v.path (some v.written))
    (hcollector : s'.messageCollector = Function.update s.messageCollector i (some v)) :
    s'.FilesOk files := by
  have hself {w : MessageCollector} (hw : s'.messageCollector i = some w) : w = v := by
    rw [hcollector, Function.update_self, Option.some.injEq] at hw
    exact hw.symm
  have hold {j : ι} (hj : j ≠ i) : s'.messageCollector j = s.messageCollector j := by
    rw [hcollector, Function.update_of_ne hj]
  constructor
  · intro j w hw
    by_cases hpath : w.path = v.path
    · refine ⟨i, v, by rw [hcollector, Function.update_self], hpath.symm, ?_, ?_⟩
      · rw [hfiles, hpath, Function.update_self]
      · intro hopen
        by_contra hji
        rw [hold (Ne.symm hji)] at hw
        rw [hothers j w (Ne.symm hji) hw hpath] at hopen
        cases hopen
    · have hji : j ≠ i := by
        rintro rfl
        exact hpath (by rw [hself hw])
      rw [hold hji] at hw
      obtain ⟨k, w', hk, hk', hfile, hopen⟩ := h.owner j w hw
      have hki : k ≠ i := by
        rintro rfl
        exact hpath (hk'.symm.trans (hsame w' hk))
      refine ⟨k, w', by rw [hold hki, hk], hk', ?_, hopen⟩
      rw [hfiles, Function.update_of_ne hpath, hfile]
  · intro j k w w' hj hk hopen hopen' hpath
    by_cases hji : j = i
    · by_cases hki : k = i
      · rw [hji, hki]
      · subst hji
        rw [hself hj] at hpath
        rw [hold hki] at hk
        rw [hothers k w' hki hk hpath.symm] at hopen'
        cases hopen'
    · rw [hold hji] at hj
      by_cases hki : k = i
      · subst hki
        rw [hself hk] at hpath
        rw [hothers j w hji hj hpath] at hopen
        cases hopen
      · rw [hold hki] at hk
        exact h.single j k w w' hj hk hopen hopen' hpath
  · intro path hpath
    have hne : path ≠ v.path := fun hpath' =>
      hpath i v (by rw [hcollector, Function.update_self]) hpath'.symm
    rw [hfiles, Function.update_of_ne hne]
    refine h.kept path fun j w hw => ?_
    by_cases hji : j = i
    · subst hji
      rw [hsame w hw]
      exact hne.symm
    · exact hpath j w (by rw [hold hji, hw])

omit [DecidableEq ι] in
/-- No other collector has the file open. -/
theorem FilesOk.others {i : ι} {w : MessageCollector} (h : s.FilesOk files)
    (hw : s.messageCollector i = some w) (hopen : w.closed = false) (j : ι) (w' : MessageCollector)
    (hj : j ≠ i) (hw' : s.messageCollector j = some w') (hpath : w'.path = w.path) :
    w'.closed = true := by
  by_contra hclosed
  exact hj (h.single j i w' w hw' hw (by simpa using hclosed) hopen hpath)

omit [DecidableEq ι] in
/-- The file of an open collector is what it has written. -/
theorem FilesOk.files_eq {i : ι} {w : MessageCollector} (h : s.FilesOk files)
    (hw : s.messageCollector i = some w) (hopen : w.closed = false) :
    s.files w.path = some w.written := by
  obtain ⟨j, w', hw', -, hfile, hj⟩ := h.owner i w hw
  obtain rfl := hj hopen
  rw [hw, Option.some.injEq] at hw'
  rw [hfile, hw']

/-- An open collector writes to its file. -/
theorem FilesOk.writeFile {i : ι} {w : MessageCollector} (h : s.FilesOk files)
    (hw : s.messageCollector i = some w) (hopen : w.closed = false) (n : ℕ) (closed : Bool) :
    (s.writeFile i w n closed).FilesOk files := by
  refine h.update (v := { w.write n with closed := closed })
    (fun j w' hj hw' hpath => h.others hw hopen j w' hj hw' hpath) ?_ ?_ rfl
  · intro w' hw'
    rw [hw, Option.some.injEq] at hw'
    rw [← hw']
    rfl
  · have hcontent : w.content n w.written = w.written ++ w.buffer.take n := by
      rw [MessageCollector.content, File.fwrite_append]
    simp only [State.writeFile, h.files_eq hw hopen, Option.getD_some, hcontent,
      MessageCollector.write]

theorem FilesOk.act {i : ι} {before : List (Event ι)} (h : s.FilesOk files)
    (hok : s.Ok lineSeparator jobs) (hfresh : Fresh before s (.act i))
    (hstep : stepAlive lineSeparator jobs s (.act i) = some s') : s'.FilesOk files := by
  simp only [stepAlive] at hstep
  split at hstep
  case h_2 => cases hstep
  case h_1 done a todo hthread =>
    cases hstep
    have hcollected := hok.collected i
    rw [hthread] at hcollected
    have hbody := hok.body i _ _ hthread
    suffices hact : (s.act lineSeparator i a).FilesOk files by exact hact.frame rfl rfl
    cases a with
    | create path =>
      simp only [State.act]
      split
      case h_1 => exact h
      case h_2 hw =>
        refine h.update (i := i) (v := ⟨path, [], [], false⟩)
          (hfresh i done path todo rfl hthread hw) ?_ rfl rfl
        intro w hw'
        rw [hw] at hw'
        cases hw'
    | collect message =>
      simp only [State.act]
      split
      case h_2 => exact h
      case h_1 w hw =>
        rw [hw] at hcollected
        have hopen := hcollected.isOpen hbody (by simp) (by simp)
        refine h.update (v := w.collect lineSeparator message) ?_ ?_ ?_ rfl
        · simp only [MessageCollector.collect, hopen, Bool.false_eq_true, if_false]
          exact h.others hw hopen
        · intro w' hw'
          rw [hw, Option.some.injEq] at hw'
          simp [← hw', MessageCollector.collect, hopen]
        · -- the file is as it was, since the text is in the buffer
          simp only [MessageCollector.collect, hopen, Bool.false_eq_true, if_false]
          rw [← h.files_eq hw hopen, Function.update_eq_self]
    | finished =>
      simp only [State.act]
      split
      case h_2 => exact h
      case h_1 w hw =>
        rw [hw] at hcollected
        exact h.writeFile hw (hcollected.isOpen hbody (by simp) (by simp)) _ true
    | remove => exact h.frame rfl rfl
    | println line => exact h.frame rfl rfl

theorem FilesOk.step {before : List (Event ι)} (h : s.FilesOk files)
    (hok : s.Ok lineSeparator jobs) (hfresh : Fresh before s e)
    (hstep : State.step lineSeparator jobs s e = some s') : s'.FilesOk files := by
  replace hstep := stepAlive_of_step hstep
  cases e with
  | act i => exact h.act hok hfresh hstep
  | register i | run i | launched | throws i =>
    simp only [stepAlive, Option.ite_none_right_eq_some, Option.some.injEq] at hstep
    obtain ⟨-, rfl⟩ := hstep
    exact h.frame rfl rfl
  | openFails i =>
    simp only [stepAlive] at hstep
    split at hstep
    case h_1 =>
      cases hstep
      exact h.frame rfl rfl
    case h_2 => cases hstep
  | flush i n =>
    simp only [stepAlive] at hstep
    split at hstep
    case h_2 => cases hstep
    case h_1 w hw =>
      simp only [Option.ite_none_right_eq_some, Option.some.injEq] at hstep
      obtain ⟨⟨hopen, -⟩, rfl⟩ := hstep
      exact h.writeFile hw hopen n false
  | poll =>
    simp only [stepAlive, Option.ite_none_right_eq_some, Option.some.injEq] at hstep
    obtain ⟨-, rfl⟩ := hstep
    split_ifs
    · exact h.frame rfl rfl
    · exact h

/-- A thread that has left the registry has closed its file, which it wrote all of its text to, and
has at most its last line to print. -/
theorem Ok.removed (hok : s.Ok lineSeparator jobs) {i : ι}
    (hremove : .remove ∈ (s.threads i).done) :
    (∃ w, s.messageCollector i = some w ∧ w.path = (jobs i).path ∧ w.closed = true ∧
      w.written = logOf lineSeparator (jobs i).body) ∧
    (linesOf (s.threads i).done = linesOf (jobs i).body ∨
      ∃ line, linesOf (s.threads i).done ++ [line] = linesOf (jobs i).body) := by
  cases hthread : s.threads i with
  | created | noWriter =>
    rw [hthread] at hremove
    cases hremove
  | running done todo =>
    rw [hthread] at hremove
    have hbody := hok.body i done todo hthread
    have hcollected := hok.collected i
    rw [hthread] at hcollected
    simp only [Thread.done] at hremove hcollected ⊢
    obtain ⟨hfinished, htodo⟩ :
        .finished ∈ done ∧ (todo = [] ∨ ∃ line, todo = [.println line]) := by
      rcases done_cases hbody with ⟨-, hnot⟩ | ⟨-, hnot, -⟩ | ⟨hfinished, -, htodo⟩
      · exact absurd hremove hnot
      · exact absurd hremove hnot
      · exact ⟨hfinished, htodo⟩
    have hlog : logOf lineSeparator done = logOf lineSeparator (jobs i).body := by
      rcases htodo with rfl | ⟨line, rfl⟩
      · rw [← hbody, List.append_nil]
      · rw [← hbody, logOf_concat]
        exact (List.append_nil _).symm
    constructor
    · rcases hw : s.messageCollector i with _ | w
      · rw [hw] at hcollected
        obtain rfl : done = [] := hcollected
        cases hremove
      · rw [hw] at hcollected
        obtain ⟨-, hpath, htext, hclosed, hbuffer⟩ := hcollected
        rw [hbuffer (hclosed.2 hfinished), List.append_nil] at htext
        exact ⟨w, rfl, hpath, hclosed.2 hfinished, htext.trans hlog⟩
    · rcases htodo with rfl | ⟨line, rfl⟩
      · rw [← hbody, List.append_nil]
        exact .inl rfl
      · rw [← hbody, linesOf_concat]
        exact .inr ⟨line, rfl⟩

/-- In every run in which no task creates a file that another one has open, when the main thread has
left its loop: the file of each task is the whole log of that task, or of another one with the same
file name; files that no task has the name of are as they were; and the console has all lines of
each task, in order, except perhaps the last. -/
theorem logs_complete (lineSeparator : Bytes) (jobs : ι → Job) (files : Bytes → Option Bytes)
    (es : List (Event ι)) (hfresh : Along (State.step lineSeparator jobs) (new files) Fresh es)
    (hs : run (State.step lineSeparator jobs) (new files) es = some s)
    (hexited : s.main = .exited) :
    (∀ i, s.registered i = true →
      (∃ j, s.registered j = true ∧ (jobs j).path = (jobs i).path ∧
        s.files (jobs i).path = some (logOf lineSeparator (jobs j).body)) ∧
      ((s.console.filter (·.1 = i)).map Prod.snd = linesOf (jobs i).body ∨
        ∃ line, (s.console.filter (·.1 = i)).map Prod.snd ++ [line] = linesOf (jobs i).body)) ∧
    ∀ path, (∀ i, s.registered i = true → (jobs i).path ≠ path) → s.files path = files path := by
  obtain ⟨hok, hfiles⟩ : s.Ok lineSeparator jobs ∧ s.FilesOk files := by
    refine hfresh.invariant (fun _ s => s.Ok lineSeparator jobs ∧ s.FilesOk files)
      ⟨ok_new files, filesOk_new files⟩ ?_ hs
    exact fun _ _ _ _ h hfresh hstep => ⟨h.1.step hstep, h.2.step h.1 hfresh hstep⟩
  have hremoved (i : ι) (hi : s.registered i = true) : .remove ∈ (s.threads i).done := by
    by_contra hremove
    have hmem := (hok.mem i).2 ⟨hi, hremove⟩
    rw [hok.exited hexited] at hmem
    cases hmem
  have hcollector (i : ι) (w : MessageCollector) (hw : s.messageCollector i = some w) :
      s.registered i = true ∧ w.path = (jobs i).path := by
    have hcollected := hok.collected i
    rw [hw] at hcollected
    refine ⟨hok.ran i fun hthread => hcollected.1 ?_, hcollected.2.1⟩
    rw [hthread]
    rfl
  refine ⟨fun i hi => ⟨?_, ?_⟩, ?_⟩
  · obtain ⟨⟨w, hw, hpath, -, -⟩, -⟩ := hok.removed (hremoved i hi)
    obtain ⟨j, w', hw', hpath', hfile, -⟩ := hfiles.owner i w hw
    obtain ⟨hj, hpathj⟩ := hcollector j w' hw'
    obtain ⟨⟨w'', hw'', -, -, hwritten⟩, -⟩ := hok.removed (hremoved j hj)
    rw [hw', Option.some.injEq] at hw''
    refine ⟨j, hj, by rw [← hpathj, hpath', hpath], ?_⟩
    rw [← hpath, hfile, hw'', hwritten]
  · rw [hok.console i]
    exact (hok.removed (hremoved i hi)).2
  · intro path hpath
    refine hfiles.kept path fun i w hw => ?_
    obtain ⟨hi, hpathi⟩ := hcollector i w hw
    rw [hpathi]
    exact hpath i hi

/-- Tasks with different file names. -/
theorem along_fresh (hpath : Function.Injective fun i => (jobs i).path) (es : List (Event ι)) :
    Along (State.step lineSeparator jobs) (new files) Fresh es := by
  have hall : Along (State.step lineSeparator jobs) (new files) (fun _ _ _ => True) es :=
    fun _ _ _ _ _ _ => trivial
  refine hall.imp (fun _ s => s.Ok lineSeparator jobs) (ok_new files)
    (fun _ _ _ _ hok _ hstep => hok.step hstep) ?_
  intro before s e hok _ i done path todo he hthread hnone j w hji hw hwpath
  have hcollected := hok.collected i
  rw [hnone, hthread] at hcollected
  obtain rfl : done = [] := hcollected
  have hcreate := create_of_nil (hok.body i _ _ hthread)
  have hcollected := hok.collected j
  rw [hw] at hcollected
  rw [Action.create.injEq] at hcreate
  exact absurd (hpath (hcollected.2.1.symm.trans (hwpath.trans hcreate))) hji

/-- A task that succeeds and one that is cancelled. -/
def twoJobs : Bool → Job
  | false => ⟨.simple, ⟨1, -1⟩, ⟨ascii "5", 5⟩⟩
  | true => ⟨.cancelFromJava 0, ⟨1, -1⟩, ⟨ascii "6", 6⟩⟩

/-- Both tasks leave the registry and the main thread leaves its loop, before either has printed its
last line. -/
def twoRemoved : List (Event Bool) :=
  [.register false, .run false, .register true, .run true, .launched] ++
    (List.replicate 6 [.act false, .act true]).flatten ++ [.act false, .act false, .poll]

theorem logs_complete_twoJobs :
    ∃ s, run (State.step (ascii "\n") twoJobs) (new fun _ => none) twoRemoved = some s ∧
      s.main = .exited ∧ ∀ i, s.registered i = true → ∃ j, (twoJobs j).path = (twoJobs i).path ∧
        s.files (twoJobs i).path = some (logOf (ascii "\n") (twoJobs j).body) := by
  have hmain : (run (State.step (ascii "\n") twoJobs) (new fun _ => none) twoRemoved).map
      State.main = some .exited := by
    decide +kernel
  obtain ⟨s, hs, hexited⟩ := Option.map_eq_some_iff.1 hmain
  have hpath : Function.Injective fun i => (twoJobs i).path := by decide
  obtain ⟨hlogs, -⟩ := logs_complete (ascii "\n") twoJobs (fun _ => none) twoRemoved
    (along_fresh hpath twoRemoved) hs hexited
  refine ⟨s, hs, hexited, fun i hi => ?_⟩
  obtain ⟨⟨j, -, hj⟩, -⟩ := hlogs i hi
  exact ⟨j, hj⟩

/-! ## The main thread gets to the end -/

/-- A process that has ended has a thread whose file could not be opened. -/
theorem exists_noWriter (h : Machine.Reachable (State.step lineSeparator jobs) (new files) s)
    (hterminated : s.terminated = true) : ∃ i, s.threads i = .noWriter := by
  refine h.invariant (fun s => s.terminated = true → ∃ i, s.threads i = .noWriter)
    (fun hnew => by cases hnew) ?_ hterminated
  intro s e s' _ hstep hterminated
  have halive : s.terminated = false := by
    rw [step] at hstep
    split_ifs at hstep with hend
    simpa using hend
  replace hstep := stepAlive_of_step hstep
  cases e with
  | throws i =>
    simp only [stepAlive, Option.ite_none_right_eq_some, Option.some.injEq] at hstep
    obtain ⟨hthread, rfl⟩ := hstep
    exact ⟨i, hthread⟩
  | register i | run i | launched =>
    simp only [stepAlive, Option.ite_none_right_eq_some, Option.some.injEq] at hstep
    obtain ⟨-, rfl⟩ := hstep
    cases halive.symm.trans hterminated
  | poll =>
    simp only [stepAlive, Option.ite_none_right_eq_some, Option.some.injEq] at hstep
    obtain ⟨-, rfl⟩ := hstep
    split_ifs at hterminated
    all_goals cases halive.symm.trans hterminated
  | act i =>
    simp only [stepAlive] at hstep
    split at hstep
    next done a todo hthread =>
      cases hstep
      have hsame := act_terminated s lineSeparator i a
      cases halive.symm.trans (hsame.symm.trans hterminated)
    next => cases hstep
  | openFails i =>
    simp only [stepAlive] at hstep
    split at hstep
    · cases hstep
      cases halive.symm.trans hterminated
    · cases hstep
  | flush i n =>
    simp only [stepAlive] at hstep
    split at hstep
    · split_ifs at hstep
      cases hstep
      cases halive.symm.trans hterminated
    · cases hstep

/-- A thread whose file could not be opened stays in `OnStarted`. -/
theorem threads_noWriter {i : ι} (hthread : s.threads i = .noWriter)
    (h : State.step lineSeparator jobs s e = some s') : s'.threads i = .noWriter := by
  replace h := stepAlive_of_step h
  cases e with
  | run j =>
    simp only [stepAlive, Option.ite_none_right_eq_some, Option.some.injEq] at h
    obtain ⟨⟨-, -, hcreated⟩, rfl⟩ := h
    have hij : i ≠ j := by
      rintro rfl
      cases hthread.symm.trans hcreated
    simpa [hij] using hthread
  | act j =>
    simp only [stepAlive] at h
    split at h
    next done a todo hrunning =>
      cases h
      have hij : i ≠ j := by
        rintro rfl
        cases hthread.symm.trans hrunning
      simpa [hij] using hthread
    next => cases h
  | openFails j =>
    simp only [stepAlive] at h
    split at h
    · cases h
      by_cases hij : i = j
      · simp [hij]
      · simpa [hij] using hthread
    · cases h
  | register j | launched | throws j =>
    simp only [stepAlive, Option.ite_none_right_eq_some, Option.some.injEq] at h
    obtain ⟨-, rfl⟩ := h
    exact hthread
  | poll =>
    simp only [stepAlive, Option.ite_none_right_eq_some, Option.some.injEq] at h
    obtain ⟨-, rfl⟩ := h
    split_ifs <;> exact hthread
  | flush j n =>
    simp only [stepAlive] at h
    split at h
    · split_ifs at h
      cases h
      exact hthread
    · cases h

/-- A step of a process that has not ended. -/
theorem step_eq (halive : s.terminated = false) (e : Event ι) :
    State.step lineSeparator jobs s e = stepAlive lineSeparator jobs s e := by
  rw [step, if_neg (by simp [halive])]

/-- What the goals below keep. -/
structure Alive (lineSeparator : Bytes) (jobs : ι → Job) (s : State ι) : Prop where
  ok : s.Ok lineSeparator jobs
  running : s.terminated = false
  /-- Every file could be opened so far. -/
  opened : ∀ i, s.threads i ≠ .noWriter

/-- All tasks in the registry can be run. -/
theorem exists_ran (h : s.Alive lineSeparator jobs) (hmain : s.main = .launching) (is : List ι)
    (his : ∀ i ∈ is, i ∈ s.taskCollection) :
    ∃ s', Machine.Reachable (State.step lineSeparator jobs) s s' ∧ s'.Alive lineSeparator jobs ∧
      s'.main = .launching ∧ s'.taskCollection = s.taskCollection ∧
      ∀ i ∈ is, s'.threads i ≠ .created := by
  induction is with
  | nil => exact ⟨s, .refl _ _, h, hmain, rfl, List.forall_mem_nil _⟩
  | cons i is ih =>
    rw [List.forall_mem_cons] at his
    obtain ⟨s', hs', h', hmain', hcollection, hthreads⟩ := ih his.2
    by_cases hi : s'.threads i = .created
    · have hregistered := ((h'.ok.mem i).1 (hcollection ▸ his.1)).1
      have hrun : State.step lineSeparator jobs s' (.run i) = some { s' with
          threads := Function.update s'.threads i (.running [] (jobs i).body) } := by
        rw [step_eq h'.running]
        simp only [stepAlive, hmain', hregistered, hi, and_self, if_true]
      refine ⟨_, hs'.trans (.single hrun), ⟨h'.ok.step hrun, h'.running, ?_⟩, hmain', hcollection,
        ?_⟩
      · intro j
        by_cases hji : j = i
        · simp [hji]
        · simpa [hji] using h'.opened j
      · intro j hj
        by_cases hji : j = i
        · simp [hji]
        · simpa [hji] using hthreads j ((List.mem_cons.1 hj).resolve_left hji)
    · refine ⟨s', hs', h', hmain', hcollection, ?_⟩
      rw [List.forall_mem_cons]
      exact ⟨hi, hthreads⟩

/-- A thread that runs can go on until its task has left the registry. -/
theorem exists_removed {i : ι} {done todo : List Action} (h : s.Alive lineSeparator jobs)
    (hi : i ∈ s.taskCollection) (hthread : s.threads i = .running done todo) :
    ∃ s', Machine.Reachable (State.step lineSeparator jobs) s s' ∧ s'.Alive lineSeparator jobs ∧
      s'.main = s.main ∧ s'.taskCollection ⊆ s.taskCollection.erase i := by
  have hregistered := ((h.ok.mem i).1 hi).1
  induction todo generalizing s done with
  | nil =>
    -- a thread that has done everything has left the registry
    obtain ⟨before, message, hjob, -⟩ := (jobs i).body_eq
    have hbody := h.ok.body i _ _ hthread
    have hremove := ((h.ok.mem i).1 hi).2
    rw [hthread, Thread.done, ← List.append_nil done, hbody, hjob] at hremove
    exact absurd hremove (by simp)
  | cons a todo ih =>
    have hact : State.step lineSeparator jobs s (.act i) = some { s.act lineSeparator i a with
        threads := Function.update s.threads i (.running (done ++ [a]) todo) } := by
      rw [step_eq h.running]
      simp only [stepAlive, hthread]
    have halive : Alive lineSeparator jobs { s.act lineSeparator i a with
        threads := Function.update s.threads i (.running (done ++ [a]) todo) } := by
      refine ⟨h.ok.step hact, ?_, ?_⟩
      · rw [← h.running]
        exact act_terminated s lineSeparator i a
      · intro j
        by_cases hji : j = i
        · simp [hji]
        · simpa [hji] using h.opened j
    obtain ⟨hregistered', hmain, -⟩ := act_registered s lineSeparator i a
    have hcollection := act_taskCollection s lineSeparator i a
    by_cases ha : a = .remove
    · rw [if_pos ha, Registry.onFinished, if_pos hregistered] at hcollection
      refine ⟨_, .single hact, halive, hmain, ?_⟩
      simp only [hcollection]
      exact List.Subset.refl _
    · rw [if_neg ha] at hcollection
      obtain ⟨s', hs', h', hmain', hsubset⟩ := ih halive
        (by simpa [hcollection] using hi) (Function.update_self _ _ _)
        (by simpa [hregistered'] using hregistered)
      refine ⟨s', (Machine.Reachable.single hact).trans hs', h', hmain'.trans hmain, ?_⟩
      simpa only [hcollection] using hsubset

/-- Once all tasks run, the registry gets empty. -/
theorem exists_empty (h : s.Alive lineSeparator jobs) (hmain : s.main = .waiting) :
    ∃ s', Machine.Reachable (State.step lineSeparator jobs) s s' ∧ s'.Alive lineSeparator jobs ∧
      s'.main = .waiting ∧ s'.taskCollection = [] := by
  induction hn : s.taskCollection.length using Nat.strongRecOn generalizing s with
  | ind n ih =>
    rcases hcollection : s.taskCollection with _ | ⟨i, is⟩
    · exact ⟨s, .refl _ _, h, hmain, hcollection⟩
    · have hi : i ∈ s.taskCollection := by simp [hcollection]
      cases hthread : s.threads i with
      | created => exact absurd hthread (h.ok.launched (by simp [hmain]) i hi)
      | noWriter => exact absurd hthread (h.opened i)
      | running done todo =>
        obtain ⟨s₁, hs₁, h₁, hmain₁, hsubset⟩ := exists_removed h hi hthread
        have hlength := (h₁.ok.nodup.subperm hsubset).length_le
        rw [List.length_erase_of_mem hi, hcollection, List.length_cons] at hlength
        have hlt : s₁.taskCollection.length < n := by
          rw [hcollection, List.length_cons] at hn
          omega
        obtain ⟨s', hs', hrest⟩ := ih _ hlt h₁ (hmain₁.trans hmain) rfl
        exact ⟨s', hs₁.trans hs', hrest⟩

theorem exists_exited (h : s.Alive lineSeparator jobs) :
    ∃ s', Machine.Reachable (State.step lineSeparator jobs) s s' ∧ s'.main = .exited := by
  have hwaiting (s : State ι) (h : s.Alive lineSeparator jobs) (hmain : s.main = .waiting) :
      ∃ s', Machine.Reachable (State.step lineSeparator jobs) s s' ∧ s'.main = .exited := by
    obtain ⟨s', hs', h', hmain', hempty⟩ := exists_empty h hmain
    refine ⟨{ s' with main := .exited }, hs'.trans (.single (e := .poll) ?_), rfl⟩
    rw [step_eq h'.running]
    simp [stepAlive, hmain', hempty]
  rcases hmain : s.main with _ | _ | _
  · obtain ⟨s₁, hs₁, h₁, hmain₁, hcollection, hthreads⟩ :=
      exists_ran h hmain s.taskCollection fun _ hi => hi
    have hlaunched : State.step lineSeparator jobs s₁ .launched =
        some { s₁ with main := .waiting } := by
      rw [step_eq h₁.running]
      simp only [stepAlive, hmain₁, hcollection, true_and]
      exact if_pos hthreads
    obtain ⟨s', hs', hexited⟩ :=
      hwaiting _ ⟨h₁.ok.step hlaunched, h₁.running, h₁.opened⟩ rfl
    exact ⟨s', (hs₁.trans (.single hlaunched)).trans hs', hexited⟩
  · exact hwaiting s h hmain
  · exact ⟨s, .refl _ _, hmain⟩

/-- Whatever the tasks have done so far, and in whichever steps they fail, cancel or throw: the main
thread can still leave its loop exactly when the log files of all tasks that were started could be
opened. -/
theorem exists_exited_iff (h : Machine.Reachable (State.step lineSeparator jobs) (new files) s) :
    (∃ s', Machine.Reachable (State.step lineSeparator jobs) s s' ∧ s'.main = .exited) ↔
      ∀ i, s.threads i ≠ .noWriter := by
  have hok {s : State ι} (h : Machine.Reachable (State.step lineSeparator jobs) (new files) s) :
      s.Ok lineSeparator jobs :=
    h.invariant (Ok lineSeparator jobs) (ok_new files) fun _ _ _ hok hstep => hok.step hstep
  constructor
  · rintro ⟨s', hs', hexited⟩ i hthread
    have hthread' : s'.threads i = .noWriter := hs'.invariant (fun s => s.threads i = .noWriter)
      hthread fun _ _ _ hthread hstep => threads_noWriter hthread hstep
    have hok' := hok (h.trans hs')
    have hmem := (hok'.mem i).2 ⟨hok'.ran i (by simp [hthread']), by simp [hthread', Thread.done]⟩
    rw [hok'.exited hexited] at hmem
    cases hmem
  · intro hopened
    refine exists_exited ⟨hok h, ?_, hopened⟩
    by_contra hterminated
    obtain ⟨i, hi⟩ := exists_noWriter h (by simpa using hterminated)
    exact hopened i hi

theorem exists_exited_iff_twoJobs :
    ∃ s s', run (State.step (ascii "\n") twoJobs) (new fun _ => none)
        [.register false, .run false, .register true, .act false] = some s ∧
      Machine.Reachable (State.step (ascii "\n") twoJobs) s s' ∧ s'.main = .exited := by
  have hany : (run (State.step (ascii "\n") twoJobs) (new fun _ => none)
      [.register false, .run false, .register true, .act false]).any
      (fun s => ∀ i, s.threads i ≠ .noWriter) = true := by
    decide +kernel
  obtain ⟨s, hs, hopened⟩ := (Option.any_eq_true _ _).1 hany
  obtain ⟨s', hs', hexited⟩ := (exists_exited_iff ⟨_, hs⟩).2 (of_decide_eq_true hopened)
  exact ⟨s, s', hs, hs', hexited⟩

end State

end Logs

end NitroCloud
