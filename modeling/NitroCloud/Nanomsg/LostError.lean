import NitroCloud.Nanomsg.Connection

/-!
# An error that is lost

`nn_streamhdr_handler` ignores the error of its socket while it stops its timer, also when the
header of the peer was accepted.  The session then becomes active, and `nn_usock_recv` and
`nn_usock_send` do nothing on a socket that is closed.  So no error is ever raised, and the owner of
the session, which waits for one, does not connect again (`error_lost`).
-/

namespace NitroCloud.Nanomsg.Transport

open Machine

namespace Session

variable {kind : Kind} {s s' : Session} {e : Event}

/-- The states of a session whose socket has failed while the timer was being stopped.  Once it is
active, the user can send a message, but no second one. -/
inductive Doomed (s : Session) : Prop
  | stopping_timer (hstate : s.state = .protohdr) (hhdr : s.streamhdr = .stopping_timer_done)
      (hfresh : s.Fresh) (hevents : s.events = [])
  | hdr_done (hstate : s.state = .protohdr) (hhdr : s.streamhdr = .done) (hfresh : s.Fresh)
      (hevents : s.events = [.streamhdr_ok])
  | stopping (hstate : s.state = .stopping_streamhdr) (hfresh : s.Fresh)
      (hevents : s.events = [.streamhdr_stopped])
  | active (hstate : s.state = .active) (hpipe : s.excl.pipe = true)
      (hinpipe : s.excl.inpipe = false) (hreceived : s.received = [])
      (hsent : s.sent.length + (if s.outstate = .idle then 1 else 0) = 1)
      (hout : s.OutSide s.events)

/-- The error of the socket is lost. -/
structure Lost (s : Session) : Prop where
  aborted : s.aborted = false
  usock : s.usock.state = .done
  doomed : s.Doomed

theorem Lost.received (h : s.Lost) : s.received = [] := by
  cases h.doomed with
  | stopping_timer _ _ hfresh => exact hfresh.received
  | hdr_done _ _ hfresh => exact hfresh.received
  | stopping _ hfresh => exact hfresh.received
  | active _ _ _ hreceived => exact hreceived

theorem Lost.sent_le (h : s.Lost) : s.sent.length ≤ 1 := by
  cases h.doomed with
  | stopping_timer _ _ hfresh => simp [hfresh.sent]
  | hdr_done _ _ hfresh => simp [hfresh.sent]
  | stopping _ hfresh => simp [hfresh.sent]
  | active _ _ _ _ hsent => omega

/-- The session has not failed, and is not about to. -/
theorem Lost.state_ne (h : s.Lost) : s.state ≠ .shutting_down ∧ s.state ≠ .done := by
  cases h.doomed with
  | stopping_timer hstate => simp [hstate]
  | hdr_done hstate => simp [hstate]
  | stopping hstate => simp [hstate]
  | active hstate => simp [hstate]

/-- The steps of a session that is active on a closed socket. -/
theorem Lost.advance_active (h : s.Lost) (hstate : s.state = .active) (hpipe : s.excl.pipe = true)
    (hinpipe : s.excl.inpipe = false) (hreceived : s.received = [])
    (hsent : s.sent.length + (if s.outstate = .idle then 1 else 0) = 1)
    (hout : s.OutSide s.events) (hstep : s.advance kind e = some s') :
    s'.Lost ∧ s'.usock = s.usock := by
  obtain ⟨hs, hu, -⟩ := h
  rcases hout with ⟨houtstate, hpipeout, -, hcases⟩ | ⟨houtstate, hpipeout, houtpipe, hcases⟩
  · rcases hcases with ⟨hevents, houtpipe⟩ | ⟨hevents, houtpipe⟩
    · cases e with
      | nn_send sphdr body room =>
        -- `nn_usock_send` does nothing
        have hsend : s.usock.send [kind.outhdr (sphdr.length + body.length), sphdr, body] room =
            (s.usock, []) := by
          rw [Usock.send, if_neg (by simp [hu])]
        rw [advance, Option.ite_none_right_eq_some] at hstep
        have hs' : s' = s.afterSend (sphdr ++ body) s.usock [] := by
          simpa [excl_send, stcp_send, withUsock, assert, hpipeout, hstate, houtstate, hevents,
            hsend, Session.afterSend, eq_comm] using hstep.2
        subst hs'
        simp only [houtstate, if_true] at hsent
        refine ⟨⟨hs, hu, .active hstate hpipe hinpipe hreceived ?_ ?_⟩, rfl⟩
        · simp only [Session.afterSend, List.length_append, List.length_singleton]
          simpa using hsent
        · exact .inr ⟨rfl, rfl, rfl, .inl ⟨rfl, fun hactive => by
            simp [Session.afterSend, hu] at hactive⟩⟩
      | _ => simp [advance, polled, hstate, hevents, hu, hinpipe] at hstep
    · cases e with
      | process msg =>
        have hs' : s' = { s with events := [], excl := { s.excl with outpipe := true } } := by
          simpa [advance, Session.process, excl_out, assert, hevents, houtpipe, hpipe,
            eq_comm] using hstep
        subst hs'
        refine ⟨⟨hs, hu, .active hstate hpipe hinpipe hreceived hsent ?_⟩, rfl⟩
        exact .inl ⟨houtstate, hpipeout, (fun hactive => by simp [hu] at hactive),
          .inl ⟨rfl, rfl⟩⟩
      | _ => simp [advance, polled, hstate, hevents, hu, hinpipe] at hstep
  · rcases hcases with ⟨hevents, -⟩ | ⟨-, hactive, -⟩
    · cases e <;> simp [advance, polled, hstate, hevents, hu, hinpipe, houtpipe] at hstep
    · simp [hu] at hactive

theorem Lost.step (h : s.Lost) (hstep : s.step kind e = some s') :
    s'.Lost ∧ s'.usock = s.usock := by
  have hlost := h
  obtain ⟨hs, hu, hdoomed⟩ := h
  rw [Session.step, if_neg (by simp [hs])] at hstep
  cases hdoomed with
  | stopping_timer hstate hhdr hfresh hevents =>
    cases e with
    | timer_stopped =>
      have hs' : s' = { s with streamhdr := .done, events := [.streamhdr_ok] } := by
        simpa [advance, raise, assert, hstate, hhdr, hevents, eq_comm] using hstep
      subst hs'
      exact ⟨⟨hs, hu, .hdr_done hstate rfl (hfresh.move _ _ _ _) rfl⟩, rfl⟩
    | _ => simp [advance, polled, hstate, hhdr, hevents, hu, hfresh.excl] at hstep
  | hdr_done hstate hhdr hfresh hevents =>
    cases e with
    | process msg =>
      have hs' : s' = { s with
          streamhdr := .idle, state := .stopping_streamhdr, events := [.streamhdr_stopped] } := by
        simpa [advance, Session.process, raise, assert, hstate, hevents, eq_comm] using hstep
      subst hs'
      exact ⟨⟨hs, hu, .stopping rfl (hfresh.move _ _ _ _) rfl⟩, rfl⟩
    | _ => simp [advance, polled, hstate, hhdr, hevents, hu, hfresh.excl] at hstep
  | stopping hstate hfresh hevents =>
    cases e with
    | process msg =>
      -- `nn_usock_recv` does nothing
      have hrecv : s.usock.recv kind.hdrSize msg = (s.usock, []) := by
        rw [Usock.recv, if_neg (by simp [hu])]
      have hs' : s' = { s with
          events := [.pipe_out]
          pipebase := ⟨true, .async, .idle⟩
          excl := ⟨true, false, false⟩
          instate := .hdr
          outstate := .idle
          state := .active } := by
        simpa [advance, Session.process, pipebase_start, raise, withUsock, assert, hstate, hevents,
          hfresh.pipebase, hfresh.excl, hrecv, eq_comm] using hstep
      subst hs'
      refine ⟨⟨hs, hu, .active rfl rfl rfl hfresh.received (by simp [hfresh.sent]) ?_⟩, rfl⟩
      exact .inl ⟨rfl, rfl, fun hactive => by simp [hu] at hactive, .inr ⟨rfl, rfl⟩⟩
    | _ => simp [advance, polled, hstate, hevents, hu, hfresh.excl] at hstep
  | active hstate hpipe hinpipe hreceived hsent hout =>
    exact hlost.advance_active hstate hpipe hinpipe hreceived hsent hout hstep

/-- The session after it became active and its user sent a message. -/
def sentToNobody (s : Session) (msg : Bytes) : Session :=
  { s with
    streamhdr := .idle
    state := .active
    instate := .hdr
    outstate := .sending
    pipebase := ⟨true, .async, .async⟩
    excl := ⟨true, false, false⟩
    events := []
    sent := [msg] }

/-- A session that has lost the error becomes active, and takes a message from its user. -/
theorem run_sentToNobody (kind : Kind) (hs : s.aborted = false) (hu : s.usock.state = .done)
    (hstate : s.state = .protohdr) (hhdr : s.streamhdr = .stopping_timer_done) (hfresh : s.Fresh)
    (hevents : s.events = []) (sphdr body : Bytes) (hsize : sphdr.length + body.length < 2 ^ 64) :
    run (Session.step kind) s [.timer_stopped, .process none, .process none, .process none,
      .nn_send sphdr body none] = some (s.sentToNobody (sphdr ++ body)) := by
  have hstopped : s.step kind .timer_stopped =
      some { s with streamhdr := .done, events := [.streamhdr_ok] } := by
    simp [Session.step, advance, raise, assert, hs, hstate, hhdr, hevents]
  let stopping : Session :=
    { s with streamhdr := .idle, state := .stopping_streamhdr, events := [.streamhdr_stopped] }
  have hok : Session.step kind { s with streamhdr := .done, events := [.streamhdr_ok] }
      (.process none) = some stopping := by
    simp [Session.step, advance, Session.process, raise, assert, hs, hstate, stopping]
  -- `nn_usock_recv` and `nn_usock_send` do nothing on the socket
  have hrecv : s.usock.recv kind.hdrSize none = (s.usock, []) := by
    rw [Usock.recv, if_neg (by simp [hu])]
  have hsend : s.usock.send [kind.outhdr (sphdr.length + body.length), sphdr, body] none =
      (s.usock, []) := by
    rw [Usock.send, if_neg (by simp [hu])]
  let started : Session := { stopping with
    events := [.pipe_out]
    pipebase := ⟨true, .async, .idle⟩
    excl := ⟨true, false, false⟩
    instate := .hdr
    outstate := .idle
    state := .active }
  have hstarted : Session.step kind stopping (.process none) = some started := by
    simp [Session.step, advance, Session.process, pipebase_start, raise, withUsock, assert, hs,
      hfresh.pipebase, hfresh.excl, hrecv, stopping, started]
  have hout : Session.step kind started (.process none) =
      some { started with events := [], excl := ⟨true, false, true⟩ } := by
    simp [Session.step, advance, Session.process, excl_out, assert, hs, stopping, started]
  have hsent : Session.step kind { started with events := [], excl := ⟨true, false, true⟩ }
      (.nn_send sphdr body none) = some (s.sentToNobody (sphdr ++ body)) := by
    simp [Session.step, advance, excl_send, stcp_send, withUsock, assert, hs, hsend, hfresh.sent,
      sentToNobody, stopping, started]
    simpa using hsize
  rw [run_cons, hstopped, Option.bind_some, run_cons, hok, Option.bind_some, run_cons, hstarted,
    Option.bind_some, run_cons, hout, Option.bind_some, run_cons, hsent, Option.bind_some, run_nil]

end Session

namespace Connection

variable {link : Link} {c c' : Connection} {i : Side}

theorem lost_step {e : Side × Session.Event} (h : (c i).Lost) (hstep : c.step link e = some c') :
    (c' i).Lost ∧ (c' i).usock = (c i).usock := by
  obtain ⟨j, e⟩ := e
  obtain ⟨s, hs, hstep⟩ := Option.bind_eq_some_iff.1 hstep
  rw [Option.ite_none_right_eq_some] at hstep
  cases hstep.2
  by_cases hi : i = j
  · subst hi
    rw [Function.update_self]
    exact h.step hs
  · rw [Function.update_of_ne hi]
    exact ⟨h, rfl⟩

/-- What a side that has lost an error does on its own. -/
theorem reachable_lost {s : Session} {es : List Session.Event} (h : (c i).Lost)
    (hrx : (c i).usock.rx <+: (c i.other).usock.tx)
    (hes : run (Session.step (link.kind i)) (c i) es = some s) :
    Reachable (step link) c (Function.update c i s) ∧ s.Lost ∧ s.usock = (c i).usock := by
  induction es using List.reverseRecOn generalizing s with
  | nil =>
    cases hes
    rw [Function.update_eq_self]
    exact ⟨.refl _ _, h, rfl⟩
  | append_singleton es e ih =>
    rw [run_concat, Option.bind_eq_some_iff] at hes
    obtain ⟨s₁, hs₁, hstep⟩ := hes
    obtain ⟨hreach, hlost₁, husock₁⟩ := ih hs₁
    obtain ⟨hlost, husock⟩ := hlost₁.step hstep
    have hread : s.usock.rx <+: (c i.other).usock.tx := by
      rw [husock, husock₁]
      exact hrx
    exact ⟨hreach.trans (.single (step_update hstep hread)), hlost, husock.trans husock₁⟩

/-- When the socket of a session fails while the timer of its protocol header is being stopped, no
step after that makes the session fail, so it is never closed.  It sends and receives nothing, and
takes at most one message from its user.  It can become active and take any message, which goes
nowhere. -/
theorem error_lost (hc : Reachable (step link) new c) (haborted : (c i).aborted = false)
    (hstate : (c i).state = .protohdr) (hhdr : (c i).streamhdr = .stopping_timer_done)
    (hevents : (c i).events = []) (husock : (c i).usock.state = .done) :
    (∀ c', Reachable (step link) c c' →
      (c' i).aborted = false ∧ (c' i).state ≠ .shutting_down ∧ (c' i).state ≠ .done ∧
        (c' i).usock = (c i).usock ∧ (c' i).received = [] ∧ (c' i).sent.length ≤ 1) ∧
    ∀ sphdr body : Bytes, sphdr.length + body.length < 2 ^ 64 →
      ∃ c', Reachable (step link) c c' ∧ (c' i).state = .active ∧
        (c' i).sent = [sphdr ++ body] := by
  have hsound := sound_reachable hc
  have hfresh : (c i).Fresh := by
    cases (hsound.ok i).phase haborted with
    | stoppingDone _ _ hfresh => exact hfresh
    | _ => simp_all [Session.new]
  have hlost : (c i).Lost := ⟨haborted, husock, .stopping_timer hstate hhdr hfresh hevents⟩
  constructor
  · intro c' hc'
    obtain ⟨hlost', husock'⟩ : (c' i).Lost ∧ (c' i).usock = (c i).usock := by
      refine hc'.invariant (fun c' => (c' i).Lost ∧ (c' i).usock = (c i).usock) ⟨hlost, rfl⟩ ?_
      rintro c₁ e c₂ ⟨hlost₁, husock₁⟩ hstep
      obtain ⟨hlost₂, husock₂⟩ := lost_step hlost₁ hstep
      exact ⟨hlost₂, husock₂.trans husock₁⟩
    obtain ⟨hshutting, hdone⟩ := hlost'.state_ne
    exact ⟨hlost'.aborted, hshutting, hdone, husock', hlost'.received, hlost'.sent_le⟩
  · intro sphdr body hsize
    have hrun := Session.run_sentToNobody (link.kind i) haborted husock hstate hhdr hfresh hevents
      sphdr body hsize
    obtain ⟨hreach, -⟩ := reachable_lost hlost (hsound.rx i) hrun
    refine ⟨_, hreach, ?_, ?_⟩
    · rw [Function.update_self]
      rfl
    · rw [Function.update_self]
      rfl

/-- The socket of the right side fails after its header was sent and that of the left side read. -/
def breaksDown : List (Side × Session.Event) :=
  handshake.take 6 ++ [(.right, .fd_err), (.right, .process none)]

theorem error_lost_breaksDown : ∃ c c', Reachable (step overTcp) new c ∧
    (c .right).usock.state = .done ∧ Reachable (step overTcp) c c' ∧ (c' .right).state = .active ∧
    (c' .right).sent = [[1, 2, 3]] ∧ (c' .right).usock = (c .right).usock ∧
    ∀ c'', Reachable (step overTcp) c' c'' → (c'' .right).sent.length ≤ 1 := by
  have hany : (run (step overTcp) new breaksDown).any (fun c =>
      (c .right).aborted = false ∧ (c .right).state = .protohdr ∧
        (c .right).streamhdr = .stopping_timer_done ∧ (c .right).events = [] ∧
        (c .right).usock.state = .done) = true := by
    decide +kernel
  obtain ⟨c, hc, hfacts⟩ := (Option.any_eq_true _ _).1 hany
  obtain ⟨haborted, hstate, hhdr, hevents, husock⟩ := of_decide_eq_true hfacts
  obtain ⟨hall, hsend⟩ := error_lost ⟨_, hc⟩ haborted hstate hhdr hevents husock
  obtain ⟨c', hc', hactive, hsent⟩ := hsend [] [1, 2, 3] (by decide)
  obtain ⟨-, -, -, husock', -⟩ := hall c' hc'
  refine ⟨c, c', ⟨_, hc⟩, husock, hc', hactive, hsent, husock', fun c'' hc'' => ?_⟩
  obtain ⟨-, -, -, -, -, hlength⟩ := hall c'' (hc'.trans hc'')
  exact hlength

end Connection

end NitroCloud.Nanomsg.Transport
