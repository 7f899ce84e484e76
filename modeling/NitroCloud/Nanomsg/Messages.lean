import NitroCloud.Nanomsg.Session

/-!
# The messages of a session

What the steps of an active session keep: those that read a message, give it to the user or take one
from the user, and those after the session has failed.  `Ok.step` puts all steps together.
-/

namespace NitroCloud.Nanomsg.Transport

open Framing

namespace Session

variable {kind : Kind} {timeouts : Bool} {s s' : Session}

/-! ## The messages that are received -/

/-- A session that asks its socket for a part of a message. -/
theorem Ok.recv {msg : Option Bytes} {n : ℕ} (h : s.Ok kind timeouts) (before : Bytes)
    (hs : s.aborted = false) (hidle : s.state ≠ .idle) (hu : s'.usock = s.usock)
    (hsent : s'.sent = s.sent) (hgot : s'.got = s.got) (haborted : s'.aborted = false)
    (hstate : s'.state = .active) (hpipebase : s'.pipebase.active = true)
    (hpipe : s'.excl.pipe = true) (hpipein : s'.pipebase.instate = .async)
    (hinpipe : s'.excl.inpipe = false) (hout : s'.OutSide s'.events)
    (hevents : s'.events = [] ∨ s'.events = [.pipe_out])
    (hbefore : s.usock.state = .active →
      s.usock.pollin = false ∧ s.usock.rx = before ++ s.usock.batch)
    (hread : s.usock.state = .active →
      ∀ u, u.Asked before n → Reading kind { s' with usock := u }) :
    Ok kind timeouts (s'.withUsock (s'.usock.recv n msg)) := by
  have hwritten (u : Usock) (events : List FsmEvent) :
      written kind { s' with usock := u, events := events } = written kind s :=
    written_of_ne hidle (by simp) hstate hsent
  have hnot : s'.events ≠ [.usock .sent] := by
    rcases hevents with hnil | hone
    · simp [hnil]
    · simp [hone]
  by_cases hactive : s.usock.state = .active
  · obtain ⟨hpollin, hrx⟩ := hbefore hactive
    rcases s.usock.recv_cases before n msg hactive hrx hpollin with
      hfail | ⟨u, hu', hasked, hsame, hpre, hcases⟩
    · rw [hu, hfail, withUsock_append hevents]
      refine h.fail hsent (hwritten _ _) hgot rfl rfl rfl (by simp) haborted ?_
      refine .active s'.events [.usock .shutdown] hstate hpipebase hpipe rfl
        (fun hone => absurd hone hnot) ?_ (.inr (.inr (.inl ⟨rfl, rfl⟩)))
      rcases hout with ⟨houtstate, hpipeout, hpollout, hcases⟩ |
        ⟨houtstate, hpipeout, houtpipe, ⟨hnil, -⟩ | ⟨hone, -⟩⟩
      · exact .inl ⟨houtstate, hpipeout, (fun hfalse => by cases hfalse), hcases⟩
      · exact .inr ⟨houtstate, hpipeout, houtpipe, .inl ⟨hnil, fun hfalse => by cases hfalse⟩⟩
      · exact absurd hone hnot
    · have hsending := (h.sending hs hactive).same hsame
      have hout' (events : List FsmEvent) :
          OutSide { s' with usock := u, events := events } s'.events :=
        hout.same rfl rfl rfl (by rw [hu, hactive, hu']) (by rw [hu, hsame.2.1])
      rcases hcases with ⟨hrecv, hp⟩ | ⟨hrecv, hp⟩
      · rw [hu, hrecv, withUsock_append hevents]
        refine h.keep hsent (hwritten _ _) hgot ⟨_, hsending.tx⟩ hpre haborted
          (fun _ => hsending) ?_
        exact .active s'.events [.usock .received] hstate hpipebase hpipe rfl
          (fun hone => absurd hone hnot) (hout' _)
          (.inl ⟨fun _ => hread hactive u hasked, hpipein, hinpipe, .inr ⟨rfl, hu', hp⟩⟩)
      · rw [hu, hrecv, withUsock_nil]
        refine h.keep hsent (hwritten _ _) hgot ⟨_, hsending.tx⟩ hpre haborted
          (fun _ => hsending) ?_
        exact .active s'.events [] hstate hpipebase hpipe (List.append_nil _).symm (fun _ => rfl)
          (hout' _)
          (.inl ⟨fun _ => hread hactive u hasked, hpipein, hinpipe, .inl ⟨rfl, fun _ => hp⟩⟩)
  · have hrecv : s'.usock.recv n msg = (s'.usock, []) := by rw [Usock.recv, hu, if_neg hactive]
    rw [hrecv, withUsock_nil]
    have hdead {P : Prop} : s'.usock.state = .active → P := fun h => absurd (hu ▸ h) hactive
    refine h.keep hsent (hwritten _ _) hgot (hu ▸ h.tx) (hu ▸ List.prefix_rfl) haborted hdead ?_
    exact .active s'.events [] hstate hpipebase hpipe (List.append_nil _).symm (fun _ => rfl) hout
      (.inl ⟨hdead, hpipein, hinpipe, .inl ⟨rfl, hdead⟩⟩)

/-- The pipe is started. -/
theorem Ok.process_stopped {msg : Option Bytes} {event : FsmEvent} {events : List FsmEvent}
    (h : s.Ok kind timeouts) (hs : s.aborted = false) (hstate : s.state = .stopping_streamhdr)
    (hevents : s.events = event :: events) :
    Ok kind timeouts (Session.process kind { s with events := events } msg event) := by
  cases h.phase hs with
  | stopping _ hfresh hone hin =>
    obtain ⟨rfl, rfl⟩ := List.cons.inj (hone.symm.trans hevents)
    have hprocess : Session.process kind { s with events := [] } msg .streamhdr_stopped =
        Session.withUsock { s with
          events := [.pipe_out]
          pipebase := ⟨true, .async, .idle⟩
          excl := ⟨true, false, false⟩
          instate := .hdr
          outstate := .idle
          state := .active } (s.usock.recv kind.hdrSize msg) := by
      simp [process, pipebase_start, raise, assert, hstate, hfresh.pipebase, hfresh.excl]
    rw [hprocess]
    refine h.recv s.usock.buf hs (by simp [hstate]) rfl rfl ?_ hs rfl rfl rfl rfl rfl ?_
      (.inr rfl) ?_ ?_
    · simp [got, hfresh.instate]
    · exact .inl ⟨rfl, rfl, fun hactive => (hin hactive).pollout, .inr ⟨rfl, rfl⟩⟩
    · intro hactive
      obtain ⟨hrx, -, hpollin, -⟩ := hin hactive
      exact ⟨hpollin, hrx⟩
    · intro hactive u hasked
      refine ⟨s.usock.buf, (hin hactive).length, .inl ⟨rfl, ?_⟩⟩
      simpa [hfresh.received] using hasked
  | _ => simp_all [new]

/-- The user can call the socket when the session is active, or the session has no pipe. -/
theorem Ok.active_of_pipe (h : s.Ok kind timeouts) (hs : s.aborted = false)
    (hevents : s.events = []) (hpipe : s.excl.inpipe = true ∨ s.excl.outpipe = true) :
    s.state = .active ∧ s.pipebase.active = true ∧ s.excl.pipe = true ∧ s.OutSide [] ∧
      s.InSide kind [] := by
  have hclosed (hexcl : s.excl = ⟨false, false, false⟩) : False := by simp [hexcl] at hpipe
  cases h.phase hs with
  | active outEvents inEvents hstate hpipebase hpipe' hevents' hsent hout hin =>
    obtain ⟨rfl, rfl⟩ := List.append_eq_nil_iff.1 (hevents'.symm.trans hevents)
    exact ⟨hstate, hpipebase, hpipe', hout, hin⟩
  | idle hnew => exact (hclosed (hnew ▸ rfl)).elim
  | sending _ _ hfresh => exact (hclosed hfresh.excl).elim
  | receiving _ _ hfresh => exact (hclosed hfresh.excl).elim
  | stoppingError _ _ hfresh => exact (hclosed hfresh.excl).elim
  | stoppingDone _ _ hfresh => exact (hclosed hfresh.excl).elim
  | hdrDone _ _ hfresh => exact (hclosed hfresh.excl).elim
  | stopping _ hfresh => exact (hclosed hfresh.excl).elim
  | shutting_down _ hclosed' => exact (hclosed hclosed'.excl).elim
  | done _ hevents' =>
    rcases hevents' with ⟨-, hclosed'⟩ | ⟨hone, -⟩
    · exact (hclosed hclosed'.excl).elim
    · simp [hevents] at hone

theorem Ok.nn_recv {msg : Option Bytes} (h : s.Ok kind timeouts) (hs : s.aborted = false)
    (hstep : s.advance kind (.nn_recv msg) = some s') : s'.Ok kind timeouts := by
  rw [advance, Option.ite_none_right_eq_some] at hstep
  obtain ⟨⟨hevents, hinpipe⟩, hstep⟩ := hstep
  cases hstep
  obtain ⟨hstate, hpipebase, hpipe, hout, hin⟩ := h.active_of_pipe hs hevents (.inl hinpipe)
  rcases hin with ⟨-, -, hnot, -⟩ | ⟨hholding, hinstate, hpipein, -⟩ | ⟨hnil, -⟩ | ⟨hnil, -⟩
  · simp [hinpipe] at hnot
  · have hrecv : s.excl_recv kind msg = Session.withUsock { s with
        pipebase := { s.pipebase with instate := .async }
        excl := { s.excl with inpipe := false }
        received := s.received ++ [s.inmsg]
        inmsg := []
        instate := .hdr } (s.usock.recv kind.hdrSize msg) := by
      simp [excl_recv, stcp_recv, withUsock, assert, hpipein, hstate, hinstate, hevents]
    obtain ⟨hdr, hhdr⟩ : ∃ hdr : Bytes, s.usock.state = .active → hdr.length = 8 ∧
        s.usock.pollin = false ∧
        s.usock.rx = hdr ++ stream kind.frame (s.received ++ [s.inmsg]) ++ s.usock.batch := by
      by_cases hactive : s.usock.state = .active
      · obtain ⟨hpollin, hdr, hlength, hrx⟩ := hholding hactive
        exact ⟨hdr, fun _ => ⟨hlength, hpollin, hrx⟩⟩
      · exact ⟨[], fun htrue => absurd htrue hactive⟩
    rw [hrecv]
    refine h.recv (hdr ++ stream kind.frame (s.received ++ [s.inmsg])) hs
      (by simp [hstate]) rfl rfl ?_ hs hstate hpipebase hpipe rfl rfl ?_ (.inl hevents) ?_ ?_
    · simp [got, hinstate]
    · rw [hevents]
      exact hout.same rfl rfl rfl rfl rfl
    · exact fun hactive => (hhdr hactive).2
    · exact fun hactive u hasked => ⟨hdr, (hhdr hactive).1, .inl ⟨rfl, hasked⟩⟩
  · cases hnil
  · cases hnil

/-- The session has read a whole message. -/
theorem Ok.has_message {hdr inhdr msg : Bytes} (h : s.Ok kind timeouts) (hs : s.aborted = false)
    (hstate : s.state = .active) (hpipebase : s.pipebase.active = true)
    (hpipe : s.excl.pipe = true) (hpipein : s.pipebase.instate = .async)
    (hinpipe : s.excl.inpipe = false) (hout : s.OutSide [])
    (hpollin : s.usock.pollin = false) (hlength : hdr.length = 8)
    (hinhdr : inhdr.length = kind.hdrSize) (hnormal : kind.normal inhdr = true)
    (hmsg : msg.length = kind.size inhdr) (hnot : s.instate ≠ .hasmsg)
    (hrx : s.usock.rx =
      hdr ++ stream kind.frame s.received ++ inhdr ++ msg ++ s.usock.batch) :
    Ok kind timeouts (Session.pipebase_received { s with
      events := [], inmsg := msg, instate := .hasmsg }) := by
  have hreceived : Session.pipebase_received { s with
      events := [], inmsg := msg, instate := .hasmsg } = { s with
        events := [.pipe_in]
        inmsg := msg
        instate := .hasmsg
        pipebase := { s.pipebase with instate := .idle } } := by
    simp [pipebase_received, raise, assert, hpipein]
  have hframe : kind.frame msg = inhdr ++ msg := by
    rw [Kind.frame, hmsg, (kind.outhdr_size hinhdr hnormal).1]
  have hrx' : s.usock.rx =
      hdr ++ stream kind.frame (s.received ++ [msg]) ++ s.usock.batch := by
    rw [hrx, stream_concat, hframe]
    simp only [List.append_assoc]
  have hgot : s.got = s.received := by rw [got, if_neg hnot]
  rw [hreceived]
  refine h.read rfl (written_of_ne (by simp [hstate]) (by simp) hstate rfl) ⟨?_, .inr ⟨hdr, ?_⟩⟩
    h.tx hs (fun hu => h.sending hs hu) ?_
  · simp only [got, if_true, List.mem_append, List.mem_singleton]
    rintro m (hm | rfl)
    · exact h.rx.1 m (hgot ▸ hm)
    · rw [hmsg]
      exact (kind.outhdr_size hinhdr hnormal).2
  · simp only [got, if_true]
    exact ⟨hlength, _, hrx'.symm⟩
  · refine .active [] [.pipe_in] hstate hpipebase hpipe rfl (by simp)
      (hout.same rfl rfl rfl rfl rfl) (.inr (.inl ⟨fun _ => ?_, rfl, rfl, .inr ⟨rfl, hinpipe⟩⟩))
    exact ⟨hpollin, hdr, hlength, hrx'⟩

theorem Ok.stcp_received {msg : Option Bytes} (h : s.Ok kind timeouts) (hs : s.aborted = false)
    (hstate : s.state = .active) (hpipebase : s.pipebase.active = true)
    (hpipe : s.excl.pipe = true) (hpipein : s.pipebase.instate = .async)
    (hinpipe : s.excl.inpipe = false) (hout : s.OutSide [])
    (hpollin : s.usock.pollin = false) (hreading : s.Reading kind) :
    Ok kind timeouts (Session.stcp_received kind { s with events := [] } msg) := by
  obtain ⟨hdr, hlength, ⟨hinstate, hasked⟩ | ⟨inhdr, hinstate, hinhdr, hnormal, hasked⟩⟩ := hreading
  · have hinhdr := hasked.length hpollin
    by_cases hnormal : kind.normal s.usock.buf = true
    · by_cases hlarge : kind.tooLarge (kind.size s.usock.buf) = true
      · have hprocess : Session.stcp_received kind { s with events := [] } msg =
            { s with events := [.stcp_error], state := .done } := by
          simp [Session.stcp_received, failed, raise, assert, hinstate, hnormal, hlarge]
        rw [hprocess]
        refine h.control hs (by simp [hstate]) (by simp) rfl rfl rfl hs
          (.done rfl (.inr ⟨rfl, ?_, fun _ => hpipe⟩))
        exact fun hfalse => absurd (hpipebase.symm.trans hfalse) (by simp)
      · by_cases hzero : kind.size s.usock.buf = 0
        · have hprocess : Session.stcp_received kind { s with events := [] } msg =
              Session.pipebase_received { s with
                events := [], inmsg := [], instate := .hasmsg } := by
            rw [hzero] at hlarge
            simp [Session.stcp_received, hinstate, hnormal, hlarge, hzero]
          rw [hprocess]
          refine h.has_message hs hstate hpipebase hpipe hpipein hinpipe hout hpollin hlength hinhdr
            hnormal hzero.symm (by simp [hinstate]) ?_
          rw [hasked.rx, List.append_nil]
        · have hprocess : Session.stcp_received kind { s with events := [] } msg =
              Session.withUsock { s with events := [], instate := .body }
                (s.usock.recv (kind.size s.usock.buf) msg) := by
            simp [Session.stcp_received, hinstate, hnormal, hlarge, hzero]
          rw [hprocess]
          refine h.recv (hdr ++ stream kind.frame s.received ++ s.usock.buf) hs
            (by simp [hstate]) rfl rfl ?_ hs hstate hpipebase hpipe hpipein hinpipe
            (hout.same rfl rfl rfl rfl rfl) (.inl rfl) (fun _ => ⟨hpollin, hasked.rx⟩) ?_
          · simp [got, hinstate]
          · exact fun _ u hu => ⟨hdr, hlength, .inr ⟨_, rfl, hinhdr, hnormal, hu⟩⟩
    · -- the assertion on the type of the message
      have hprocess : Session.stcp_received kind { s with events := [] } msg =
          { s with events := [], aborted := true } := by
        simp [Session.stcp_received, assert, hinstate, hnormal]
      rw [hprocess]
      refine ⟨h.sent, h.tx, h.rx, fun _ => .inr ?_, (fun hfalse => by cases hfalse),
        fun hfalse => by cases hfalse⟩
      exact ⟨hdr, s.usock.buf, hlength, hinhdr, Bool.eq_false_of_not_eq_true hnormal, _,
        hasked.rx.symm⟩
  · have hprocess : Session.stcp_received kind { s with events := [] } msg =
        Session.pipebase_received { s with
          events := [], inmsg := s.usock.buf, instate := .hasmsg } := by
      simp [Session.stcp_received, hinstate]
    rw [hprocess]
    exact h.has_message hs hstate hpipebase hpipe hpipein hinpipe hout hpollin hlength hinhdr
      hnormal (hasked.length hpollin) (by simp [hinstate]) hasked.rx

/-! ## The events of an active session -/

/-- The side that receives takes an event. -/
theorem Ok.process_in {msg : Option Bytes} {event : FsmEvent} {events : List FsmEvent}
    (h : s.Ok kind timeouts) (hs : s.aborted = false) (hstate : s.state = .active)
    (hpipebase : s.pipebase.active = true) (hpipe : s.excl.pipe = true) (hout : s.OutSide [])
    (hin : s.InSide kind (event :: events)) :
    Ok kind timeouts (Session.process kind { s with events := events } msg event) := by
  have hidle : s.state ≠ .idle := by simp [hstate]
  rcases hin with ⟨hreading, hpipein, hinpipe, ⟨hnil, -⟩ | ⟨hone, hactive, hpollin⟩⟩ |
    ⟨hholding, hinstate, hpipein, ⟨hnil, -⟩ | ⟨hone, hinpipe⟩⟩ | ⟨hone, hu⟩ | ⟨hone, hu⟩
  · cases hnil
  · cases hone
    have hprocess : Session.process kind { s with events := [] } msg (.usock .received) =
        Session.stcp_received kind { s with events := [] } msg := by
      simp [process, stcp_usock, hstate]
    rw [hprocess]
    exact h.stcp_received hs hstate hpipebase hpipe hpipein hinpipe hout hpollin (hreading hactive)
  · cases hnil
  · cases hone
    have hprocess : Session.process kind { s with events := [] } msg .pipe_in =
        { s with events := [], excl := { s.excl with inpipe := true } } := by
      simp [process, excl_in, assert, hinpipe, hpipe]
    rw [hprocess]
    refine h.control hs hidle hidle rfl rfl rfl hs ?_
    exact .active [] [] hstate hpipebase hpipe rfl (by simp) (hout.same rfl rfl rfl rfl rfl)
      (.inr (.inl ⟨hholding, hinstate, hpipein, .inl ⟨rfl, rfl⟩⟩))
  · cases hone
    have hprocess : Session.process kind { s with events := [] } msg (.usock .shutdown) =
        { s with
          events := []
          pipebase := { s.pipebase with active := false }
          excl := ⟨false, false, false⟩
          state := .shutting_down } := by
      simp [process, stcp_usock, pipebase_stop, assert, hstate, hpipebase, hpipe]
    rw [hprocess]
    exact h.control hs hidle (by simp) rfl rfl rfl hs
      (.shutting_down rfl ⟨rfl, rfl⟩ (.inl ⟨rfl, hu⟩))
  · cases hone
    have hprocess : Session.process kind { s with events := [] } msg (.usock .error) =
        { s with
          events := [.stcp_error]
          pipebase := { s.pipebase with active := false }
          excl := ⟨false, false, false⟩
          state := .done } := by
      simp [process, stcp_usock, pipebase_stop, failed, raise, assert, hstate, hpipebase, hpipe]
    rw [hprocess]
    refine h.control hs hidle (by simp) rfl rfl rfl hs (.done rfl (.inr ⟨rfl, ?_, ?_⟩))
    · exact fun _ => ⟨rfl, rfl⟩
    · exact fun htrue => by cases htrue

theorem Ok.process_active {msg : Option Bytes} {event : FsmEvent} {events : List FsmEvent}
    (h : s.Ok kind timeouts) (hs : s.aborted = false) (hstate : s.state = .active)
    (hevents : s.events = event :: events) :
    Ok kind timeouts (Session.process kind { s with events := events } msg event) := by
  have hidle : s.state ≠ .idle := by simp [hstate]
  cases h.phase hs with
  | active outEvents inEvents _ hpipebase hpipe hevents' hsent hout hin =>
    rcases outEvents with _ | ⟨outEvent, outEvents⟩
    · obtain rfl : inEvents = event :: events := hevents'.symm.trans hevents
      exact h.process_in hs hstate hpipebase hpipe hout hin
    · rcases hout with ⟨houtstate, hpipeout, hpollout, ⟨hnil, -⟩ | ⟨hone, houtpipe⟩⟩ |
        ⟨houtstate, hpipeout, houtpipe, ⟨hnil, -⟩ | ⟨hone, hactive, hpollout⟩⟩
      · cases hnil
      · cases hone
        obtain ⟨rfl, rfl⟩ : FsmEvent.pipe_out = event ∧ inEvents = events := by
          simpa [hevents'] using hevents
        have hprocess : Session.process kind { s with events := inEvents } msg .pipe_out =
            { s with events := inEvents, excl := { s.excl with outpipe := true } } := by
          simp [process, excl_out, assert, houtpipe, hpipe]
        rw [hprocess]
        refine h.control hs hidle hidle rfl rfl rfl hs ?_
        exact .active [] inEvents hstate hpipebase hpipe rfl (by simp)
          (.inl ⟨houtstate, hpipeout, hpollout, .inl ⟨rfl, rfl⟩⟩)
          (hin.same rfl rfl rfl rfl rfl rfl ⟨rfl, rfl, rfl, rfl, rfl⟩)
      · cases hnil
      · cases hone
        obtain rfl := hsent rfl
        obtain ⟨rfl, rfl⟩ : FsmEvent.usock .sent = event ∧ [] = events := by
          simpa [hevents'] using hevents
        have hprocess : Session.process kind { s with events := [] } msg (.usock .sent) =
            { s with
              events := [.pipe_out]
              outstate := .idle
              pipebase := { s.pipebase with outstate := .idle } } := by
          simp [process, stcp_usock, pipebase_sent, raise, assert, hstate, houtstate, hpipeout]
        rw [hprocess]
        refine h.control hs hidle hidle rfl rfl rfl hs ?_
        exact .active [.pipe_out] [] hstate hpipebase hpipe rfl (by simp)
          (.inl ⟨rfl, rfl, fun _ => hpollout, .inr ⟨rfl, houtpipe⟩⟩)
          (hin.same rfl rfl rfl rfl rfl rfl ⟨rfl, rfl, rfl, rfl, rfl⟩)
  | _ => simp_all [new]

/-- The session has failed, or is about to. -/
theorem Ok.process_failed {msg : Option Bytes} {event : FsmEvent} {events : List FsmEvent}
    (h : s.Ok kind timeouts) (hs : s.aborted = false)
    (hstate : s.state = .shutting_down ∨ s.state = .done) (hevents : s.events = event :: events) :
    Ok kind timeouts (Session.process kind { s with events := events } msg event) := by
  have hidle : s.state ≠ .idle := by rcases hstate with hstate | hstate <;> simp [hstate]
  cases h.phase hs with
  | shutting_down hstate' hclosed hcases =>
    rcases hcases with ⟨hnil, -⟩ | ⟨hone, hu⟩
    · simp [hnil] at hevents
    · obtain ⟨rfl, rfl⟩ := List.cons.inj (hone.symm.trans hevents)
      have hprocess : Session.process kind { s with events := [] } msg (.usock .error) =
          { s with events := [.stcp_error], state := .done } := by
        simp [process, stcp_usock, failed, raise, assert, hstate']
      rw [hprocess]
      refine h.control hs hidle (by simp) rfl rfl rfl hs (.done rfl (.inr ⟨rfl, ?_, ?_⟩))
      · exact fun _ => ⟨hclosed.pipebase, hclosed.excl⟩
      · exact fun htrue => absurd (hclosed.pipebase.symm.trans htrue) (by simp)
  | done hstate' hcases =>
    rcases hcases with ⟨hnil, -⟩ | ⟨hone, hclosed, hpipe⟩
    · simp [hnil] at hevents
    · obtain ⟨rfl, rfl⟩ := List.cons.inj (hone.symm.trans hevents)
      by_cases hpipebase : s.pipebase.active = true
      · have hprocess : Session.process kind { s with events := [] } msg .stcp_error =
            { s with
              events := []
              pipebase := { s.pipebase with active := false }
              excl := ⟨false, false, false⟩ } := by
          simp [process, pipebase_stop, assert, hpipebase, hpipe]
        rw [hprocess]
        exact h.control hs hidle hidle rfl rfl rfl hs (.done hstate' (.inl ⟨rfl, rfl, rfl⟩))
      · have hprocess : Session.process kind { s with events := [] } msg .stcp_error =
            { s with events := [] } := by
          simp [process, pipebase_stop, hpipebase]
        have hclosed' := hclosed (Bool.eq_false_of_not_eq_true hpipebase)
        rw [hprocess]
        exact h.control hs hidle hidle rfl rfl rfl hs
          (.done hstate' (.inl ⟨rfl, hclosed'.pipebase, hclosed'.excl⟩))
  | _ => simp_all [new]

/-! ## The messages that are sent -/

/-- The session after `nn_send`, with its socket and the events that this has raised. -/
def afterSend (s : Session) (msg : Bytes) (u : Usock) (events : List FsmEvent) : Session :=
  { s with
    usock := u
    events := events
    pipebase := { s.pipebase with outstate := .async }
    excl := { s.excl with outpipe := false }
    outstate := .sending
    sent := s.sent ++ [msg] }

theorem Ok.afterSend {msg : Bytes} {u : Usock} {events : List FsmEvent} (h : s.Ok kind timeouts)
    (hs : s.aborted = false) (hstate : s.state = .active) (hlength : msg.length < 2 ^ 64)
    (htx : u.tx <+: s.written kind ++ kind.frame msg) (hrx : u.rx = s.usock.rx)
    (hsending : u.state = .active → u.Sending (s.written kind ++ kind.frame msg))
    (hphase : (s.afterSend msg u events).Phase kind timeouts) :
    (s.afterSend msg u events).Ok kind timeouts := by
  have hwritten : (s.afterSend msg u events).written kind = s.written kind ++ kind.frame msg := by
    simp [written, Session.afterSend, hstate, stream_concat]
  constructor
  · intro m hm
    rcases List.mem_append.1 hm with hm | hm
    · exact h.sent m hm
    · rw [List.mem_singleton.1 hm]
      exact hlength
  · rw [hwritten]
    exact htx
  · exact h.rx.mono rfl (by simp [Session.afterSend, hrx])
  · intro htrue
    simp [Session.afterSend, hs] at htrue
  · intro _ hactive
    rw [hwritten]
    exact hsending hactive
  · exact fun _ => hphase

theorem Ok.nn_send {sphdr body : Bytes} {room : Option ℕ} (h : s.Ok kind timeouts)
    (hs : s.aborted = false) (hstep : s.advance kind (.nn_send sphdr body room) = some s') :
    s'.Ok kind timeouts := by
  rw [advance, Option.ite_none_right_eq_some] at hstep
  obtain ⟨⟨hevents, houtpipe, hlength⟩, hstep⟩ := hstep
  cases hstep
  obtain ⟨hstate, hpipebase, hpipe, hout, hin⟩ := h.active_of_pipe hs hevents (.inr houtpipe)
  rcases hout with ⟨houtstate, hpipeout, hpollout, -⟩ | ⟨-, -, hnot, -⟩
  · have hlength' : (sphdr ++ body).length < 2 ^ 64 := by rwa [List.length_append]
    have hafter {u : Usock} {types : List UsockEvent} (hsend : s.usock.send
        [kind.outhdr (sphdr.length + body.length), sphdr, body] room = (u, types)) :
        { s.excl_send kind sphdr body room with sent := s.sent ++ [sphdr ++ body] } =
          s.afterSend (sphdr ++ body) u (types.map .usock) := by
      simp [excl_send, stcp_send, withUsock, assert, hpipeout, hstate, houtstate, hevents, hsend,
        Session.afterSend]
    have hin' {u : Usock} {events : List FsmEvent} (hu : u.state = s.usock.state)
        (hsame : s.usock.SameIn u) : InSide kind (s.afterSend (sphdr ++ body) u events) [] :=
      hin.same rfl rfl rfl rfl rfl hu hsame
    by_cases hactive : s.usock.state = .active
    · have hsending := h.sending hs hactive
      have htx : s.usock.tx = s.written kind := by
        simpa [hsending.iov (hpollout hactive)] using hsending.tx
      have hframe : [kind.outhdr (sphdr.length + body.length), sphdr, body].flatten =
          kind.frame (sphdr ++ body) := by
        simp [Kind.frame]
      rcases s.usock.send_cases [kind.outhdr (sphdr.length + body.length), sphdr, body] room hactive
        htx (hpollout hactive) with
        ⟨u, hsend, hu, htx', hsame⟩ | ⟨u, hu, hsending', hsame, hcases⟩
      · rw [hafter hsend]
        refine h.afterSend hs hstate hlength' ⟨kind.frame _, by rw [htx', htx]⟩ hsame.2.2.2.2
          (fun hfalse => by simp [hu] at hfalse) ?_
        exact .active [] [.usock .shutdown] hstate hpipebase hpipe rfl (by simp)
          (.inr ⟨rfl, rfl, rfl,
            .inl ⟨rfl, fun hfalse => by simp [Session.afterSend, hu] at hfalse⟩⟩)
          (.inr (.inr (.inl ⟨rfl, hu⟩)))
      · rw [hframe] at hsending'
        have hsame' : u.state = s.usock.state := hu.trans hactive.symm
        rcases hcases with ⟨hsend, hp⟩ | ⟨hsend, hp⟩
        · rw [hafter hsend]
          refine h.afterSend hs hstate hlength' ⟨_, hsending'.tx⟩ hsame.2.2.2.2
            (fun _ => hsending') ?_
          exact .active [.usock .sent] [] hstate hpipebase hpipe rfl (fun _ => rfl)
            (.inr ⟨rfl, rfl, rfl, .inr ⟨rfl, hu, hp⟩⟩) (hin' hsame' hsame)
        · rw [hafter hsend]
          refine h.afterSend hs hstate hlength' ⟨_, hsending'.tx⟩ hsame.2.2.2.2
            (fun _ => hsending') ?_
          exact .active [] [] hstate hpipebase hpipe rfl (by simp)
            (.inr ⟨rfl, rfl, rfl, .inl ⟨rfl, fun _ => hp⟩⟩) (hin' hsame' hsame)
    · -- the socket is no longer there, and the call does nothing
      have hsend : s.usock.send [kind.outhdr (sphdr.length + body.length), sphdr, body] room =
          (s.usock, []) := by
        rw [Usock.send, if_neg hactive]
      rw [hafter hsend]
      refine h.afterSend hs hstate hlength' (h.tx.trans (List.prefix_append _ _)) rfl
        (fun htrue => absurd htrue hactive) ?_
      exact .active [] [] hstate hpipebase hpipe rfl (by simp)
        (.inr ⟨rfl, rfl, rfl, .inl ⟨rfl, fun htrue => absurd htrue hactive⟩⟩)
        (hin' rfl ⟨rfl, rfl, rfl, rfl, rfl⟩)
  · simp [houtpipe] at hnot

/-! ## The run -/

theorem Ok.process {msg : Option Bytes} (h : s.Ok kind timeouts) (hs : s.aborted = false)
    (hstep : s.advance kind (.process msg) = some s') : s'.Ok kind timeouts := by
  rw [advance] at hstep
  split at hstep
  case h_1 => cases hstep
  case h_2 event events hevents =>
    cases hstep
    cases h.phase hs with
    | idle hnew => simp [hnew, new] at hevents
    | sending hstate => exact h.process_protohdr hs hstate hevents
    | receiving hstate => exact h.process_protohdr hs hstate hevents
    | stoppingError hstate => exact h.process_protohdr hs hstate hevents
    | stoppingDone hstate => exact h.process_protohdr hs hstate hevents
    | hdrDone hstate => exact h.process_protohdr hs hstate hevents
    | stopping hstate => exact h.process_stopped hs hstate hevents
    | active _ _ hstate => exact h.process_active hs hstate hevents
    | shutting_down hstate => exact h.process_failed hs (.inl hstate) hevents
    | done hstate => exact h.process_failed hs (.inr hstate) hevents

theorem Ok.step {e : Event} (h : s.Ok kind timeouts) (he : e = .timeout → timeouts = true)
    (hstep : s.step kind e = some s') : s'.Ok kind timeouts := by
  rw [Session.step, Option.ite_none_left_eq_some] at hstep
  obtain ⟨haborted, hstep⟩ := hstep
  have hs : s.aborted = false := Bool.eq_false_of_not_eq_true haborted
  cases e with
  | start room => exact h.start hs hstep
  | nn_send sphdr body room => exact h.nn_send hs hstep
  | nn_recv msg => exact h.nn_recv hs hstep
  | fd_in msg => exact h.fd_in hs hstep
  | fd_out room => exact h.fd_out hs hstep
  | fd_err => exact h.task (.inl rfl) hs hstep
  | task_stop => exact h.task (.inr rfl) hs hstep
  | timeout => exact h.timer (.inl ⟨rfl, he rfl⟩) hs hstep
  | timer_stopped => exact h.timer (.inr rfl) hs hstep
  | process msg => exact h.process hs hstep

/-! ## The bytes that were sent -/

@[simp] theorem usock_withUsock (called : Usock × List UsockEvent) :
    (s.withUsock called).usock = called.1 := rfl

@[simp] theorem usock_assert (p : Prop) [Decidable p] : (s.assert p).usock = s.usock := rfl

@[simp] theorem usock_raise (event : FsmEvent) : (s.raise event).usock = s.usock := rfl

@[simp] theorem usock_pipebase_stop : s.pipebase_stop.usock = s.usock := by
  rw [pipebase_stop]
  split_ifs <;> rfl

@[simp] theorem usock_pipebase_received : s.pipebase_received.usock = s.usock := by
  rw [pipebase_received]
  split_ifs <;> rfl

@[simp] theorem usock_pipebase_sent : s.pipebase_sent.usock = s.usock := by
  rw [pipebase_sent]
  split_ifs <;> rfl

theorem tx_streamhdr_usock (msg : Option Bytes) (type : UsockEvent) :
    (s.streamhdr_usock msg type).usock.tx = s.usock.tx := by
  unfold streamhdr_usock
  split <;> simp

theorem tx_stcp_received (msg : Option Bytes) :
    (s.stcp_received kind msg).usock.tx = s.usock.tx := by
  rw [stcp_received]
  split
  · simp only
    split_ifs <;> simp [failed]
  · simp
  · simp

theorem tx_stcp_usock (msg : Option Bytes) (type : UsockEvent) :
    (s.stcp_usock kind msg type).usock.tx = s.usock.tx := by
  unfold stcp_usock
  split
  · simp
  · exact tx_stcp_received msg
  · simp
  · simp [failed]
  · simp [failed]
  · simp

theorem tx_process (msg : Option Bytes) (event : FsmEvent) :
    (s.process kind msg event).usock.tx = s.usock.tx := by
  cases event with
  | usock type =>
    simp only [process]
    split_ifs
    · exact tx_streamhdr_usock msg type
    · exact tx_stcp_usock msg type
  | streamhdr_ok =>
    simp only [process]
    split_ifs <;> simp
  | streamhdr_error =>
    simp only [process]
    split_ifs <;> simp [failed]
  | streamhdr_stopped =>
    simp only [process, pipebase_start]
    split_ifs <;> simp [failed]
  | stcp_error => simp [process]
  | pipe_in => simp [process, excl_in]
  | pipe_out => simp [process, excl_out]

theorem tx_excl_send (sphdr body : Bytes) (room : Option ℕ) :
    s.usock.tx <+: (s.excl_send kind sphdr body room).usock.tx := by
  rw [excl_send]
  simp only
  split_ifs <;> exact Usock.tx_send _ _

theorem tx_excl_recv (msg : Option Bytes) : (s.excl_recv kind msg).usock.tx = s.usock.tx := by
  rw [excl_recv]
  simp only
  split_ifs <;> exact Usock.tx_recv _ _

/-- What was sent is on its way, whatever happens to the session. -/
theorem tx_step {e : Event} (hstep : s.step kind e = some s') : s.usock.tx <+: s'.usock.tx := by
  rw [step, Option.ite_none_left_eq_some] at hstep
  obtain ⟨-, hstep⟩ := hstep
  cases e with
  | start room =>
    rw [advance, Option.ite_none_right_eq_some] at hstep
    cases hstep.2
    exact Usock.tx_send _ _
  | nn_send sphdr body room =>
    rw [advance, Option.ite_none_right_eq_some] at hstep
    cases hstep.2
    exact tx_excl_send sphdr body room
  | nn_recv msg =>
    rw [advance, Option.ite_none_right_eq_some] at hstep
    cases hstep.2
    rw [tx_excl_recv]
  | fd_in msg =>
    rw [advance, Option.ite_none_right_eq_some] at hstep
    cases hstep.2
    rw [usock_withUsock, Usock.tx_fd_in]
  | fd_out room =>
    rw [advance, Option.ite_none_right_eq_some] at hstep
    cases hstep.2
    exact Usock.tx_fd_out room
  | fd_err =>
    rw [advance, Option.ite_none_right_eq_some] at hstep
    cases hstep.2
    exact List.prefix_rfl
  | task_stop =>
    rw [advance, Option.ite_none_right_eq_some] at hstep
    cases hstep.2
    exact List.prefix_rfl
  | timeout =>
    rw [advance, Option.ite_none_right_eq_some] at hstep
    cases hstep.2
    exact List.prefix_rfl
  | timer_stopped =>
    rw [advance, Option.ite_none_right_eq_some] at hstep
    obtain ⟨-, hstep⟩ := hstep
    split at hstep <;> cases hstep <;> exact List.prefix_rfl
  | process msg =>
    rw [advance] at hstep
    split at hstep
    · cases hstep
    · cases hstep
      rw [tx_process]

end Session

end NitroCloud.Nanomsg.Transport
