import NitroCloud.Nanomsg.Messages

/-!
# Two sessions and the stream between them

A connection is two sessions, each with a worker, a timer and a user of its own, whose steps come in
any order.  The stream between them loses no byte and keeps their order: what one session has read
are the first bytes that the other one has sent.  How many of them a call is given, and which calls
fail, is left open.
-/

namespace NitroCloud.Nanomsg.Transport

open Framing Machine

namespace Kind

/-- The same transport; each side has an option `NN_RCVMAXSIZE` of its own. -/
def Peer : Kind → Kind → Prop
  | tcp _, tcp _ => True
  | ipc, ipc => True
  | _, _ => False

variable {kind kind' : Kind}

theorem Peer.symm (h : kind.Peer kind') : kind'.Peer kind := by
  cases kind <;> cases kind' <;> exact h

theorem Peer.frame_eq (h : kind.Peer kind') : kind'.frame = kind.frame := by
  cases kind <;> cases kind' <;> first | rfl | exact h.elim

end Kind

/-! ## The connection -/

inductive Side where
  | left | right
deriving DecidableEq, Repr

def Side.other : Side → Side
  | left => right
  | right => left

@[simp] theorem Side.other_other (i : Side) : i.other.other = i := by cases i <;> rfl

theorem Side.other_ne (i : Side) : i.other ≠ i := by cases i <;> decide

theorem Side.eq_other {i j : Side} (h : j ≠ i) : j = i.other := by
  cases i <;> cases j <;> first | rfl | exact absurd rfl h

/-- What the two sides are compiled and configured for. -/
structure Link where
  kind : Side → Kind
  peer : (kind .left).Peer (kind .right)

theorem Link.frame_other (link : Link) (i : Side) :
    (link.kind i.other).frame = (link.kind i).frame := by
  cases i with
  | left => exact link.peer.frame_eq
  | right => exact link.peer.symm.frame_eq

/-- The sessions of the two sides. -/
abbrev Connection := Side → Session

namespace Connection

/-- The sides are connected, and have exchanged no byte. -/
def new : Connection := fun _ => .new

/-- A step of one side, which reads no other bytes than those that the other side has sent. -/
def step (link : Link) (c : Connection) (e : Side × Session.Event) : Option Connection :=
  ((c e.1).step (link.kind e.1) e.2).bind fun s =>
    if s.usock.rx <+: (c e.1.other).usock.tx then some (Function.update c e.1 s) else none

/-- What a connection keeps. -/
structure Sound (link : Link) (timeouts : Bool) (c : Connection) : Prop where
  ok : ∀ i, (c i).Ok (link.kind i) timeouts
  rx : ∀ i, (c i).usock.rx <+: (c i.other).usock.tx

variable {link : Link} {timeouts : Bool} {c c' : Connection} {es : List (Side × Session.Event)}

theorem sound_new : new.Sound link timeouts :=
  ⟨fun _ => Session.ok_new, fun _ => List.prefix_rfl⟩

theorem Sound.step {e : Side × Session.Event} (h : c.Sound link timeouts)
    (he : e.2 = .timeout → timeouts = true) (hstep : c.step link e = some c') :
    c'.Sound link timeouts := by
  obtain ⟨i, e⟩ := e
  obtain ⟨s, hs, hstep⟩ := Option.bind_eq_some_iff.1 hstep
  rw [Option.ite_none_right_eq_some] at hstep
  obtain ⟨hrx, hstep⟩ := hstep
  cases hstep
  constructor
  · intro j
    by_cases hj : j = i
    · subst hj
      rw [Function.update_self]
      exact (h.ok j).step he hs
    · rw [Function.update_of_ne hj]
      exact h.ok j
  · intro j
    by_cases hj : j = i
    · subst hj
      rw [Function.update_self, Function.update_of_ne j.other_ne]
      exact hrx
    · obtain rfl := Side.eq_other hj
      rw [Function.update_of_ne hj, Side.other_other, Function.update_self]
      have hpre := h.rx i.other
      rw [Side.other_other] at hpre
      exact hpre.trans (Session.tx_step hs)

theorem sound_run (hc : run (step link) new es = some c)
    (hes : ∀ e ∈ es, e.2 = .timeout → timeouts = true) : c.Sound link timeouts := by
  have hall : Along (step link) new (fun _ _ e => e.2 = .timeout → timeouts = true) es := by
    rintro before e after s rfl -
    exact hes e (by simp)
  refine hall.invariant (fun _ c => c.Sound link timeouts) sound_new ?_ hc
  exact fun _ c e c' h he hstep => h.step he hstep

/-- Whatever happens. -/
theorem sound_reachable (hc : Reachable (step link) new c) : c.Sound link true := by
  obtain ⟨es, hc⟩ := hc
  exact sound_run hc fun _ _ _ => rfl

/-! ## Safety -/

/-- What was read after a header of the peer are frames of the messages that it has sent. -/
theorem Sound.frames_isPrefix {i : Side} {hdr frames : Bytes} (h : c.Sound link timeouts)
    (hlength : hdr.length = 8) (hpre : hdr ++ frames <+: (c i).usock.rx) :
    hdr = Session.protohdr ∧ frames <+: stream (link.kind i).frame (c i.other).sent := by
  obtain ⟨t, ht⟩ := (hpre.trans (h.rx i)).trans (h.ok i.other).tx
  rw [Session.written, link.frame_other] at ht
  split_ifs at ht
  · have hnil := congrArg List.length ht
    simp [hlength] at hnil
  · rw [List.append_assoc] at ht
    obtain ⟨hhdr, hframes⟩ := List.append_inj ht hlength
    exact ⟨hhdr, t, hframes⟩

theorem Sound.sent_lt (h : c.Sound link timeouts) (i : Side) :
    ∀ msg ∈ (c i).sent, msg.length < 2 ^ 64 := (h.ok i).sent

theorem received_isPrefix_got (s : Session) : s.received <+: s.got := by
  rw [Session.got]
  split_ifs
  · exact List.prefix_append _ _
  · exact List.prefix_rfl

theorem Sound.received_lt (h : c.Sound link timeouts) (i : Side) :
    ∀ msg ∈ (c i).received, msg.length < 2 ^ 64 :=
  fun msg hmsg => (h.ok i).rx.1 msg ((received_isPrefix_got (c i)).subset hmsg)

theorem Sound.got_isPrefix (h : c.Sound link timeouts) (i : Side) :
    (c i).got <+: (c i.other).sent := by
  obtain ⟨hlt, hnil | ⟨hdr, hlength, hpre⟩⟩ := (h.ok i).rx
  · rw [hnil]
    exact List.nil_prefix
  · exact (link.kind i).decodable.isPrefix hlt (h.sent_lt i.other)
      (h.frames_isPrefix hlength hpre).2

/-- The user of one side is given the first messages that the user of the other side has sent, each
once, whole and in their order, however the bytes are cut and whatever fails on the way. -/
theorem received_in_order (hc : Reachable (step link) new c) (i : Side) :
    (c i).received <+: (c i.other).sent :=
  (received_isPrefix_got (c i)).trans ((sound_reachable hc).got_isPrefix i)

/-- A connection over TCP with the default of `NN_RCVMAXSIZE`. -/
def overTcp : Link := ⟨fun _ => .tcp 1048576, trivial⟩

/-- The sides exchange their headers, which are cut on their way. -/
def handshake : List (Side × Session.Event) := [
  (.left, .start (some 8)), (.left, .process (some [])), (.right, .start (some 3)),
  (.right, .fd_out (some 8)), (.right, .process (some Session.protohdr)), (.right, .process none),
  (.right, .timer_stopped), (.right, .process none), (.right, .process (some [])),
  (.right, .process none), (.left, .fd_in (some (Session.protohdr.take 3))),
  (.left, .fd_in (some (Session.protohdr.drop 3))), (.left, .process none), (.left, .timer_stopped),
  (.left, .process none), (.left, .process (some [])), (.left, .process none)]

/-- A message goes from the left to the right, in two parts. -/
def oneMessage : List (Side × Session.Event) := [
  (.left, .nn_send [] [1, 2, 3] (some 4)), (.right, .fd_in (some [0, 0, 0, 0])),
  (.left, .fd_out (some 9)), (.left, .process none), (.left, .process none),
  (.right, .fd_in (some [0, 0, 0, 3, 1, 2, 3])), (.right, .process none), (.right, .process none),
  (.right, .process none), (.right, .nn_recv (some []))]

/-- Another message, and a third one that is cut off when the left side breaks down. -/
def breaksOff : List (Side × Session.Event) := [
  (.left, .nn_send [] [4, 5] (some 10)), (.left, .process none), (.left, .process none),
  (.left, .nn_send [] [6] (some 8)), (.right, .fd_in (some [0, 0, 0, 0, 0])), (.left, .fd_err),
  (.right, .fd_in (some [0, 0, 2, 4, 5, 0, 0])), (.right, .process none), (.right, .process none),
  (.right, .process none), (.right, .nn_recv (some []))]

theorem received_in_order_twoMessages : ∃ c, Reachable (step overTcp) new c ∧
    (c .right).received = [[1, 2, 3], [4, 5]] ∧ (c .left).sent = [[1, 2, 3], [4, 5], [6]] ∧
    (c .left).usock.state = .done ∧ (c .right).received <+: (c .left).sent := by
  have hany : (run (step overTcp) new (handshake ++ oneMessage ++ breaksOff)).any (fun c =>
      (c .right).received = [[1, 2, 3], [4, 5]] ∧ (c .left).sent = [[1, 2, 3], [4, 5], [6]] ∧
        (c .left).usock.state = .done) = true := by
    decide +kernel
  obtain ⟨c, hc, hfacts⟩ := (Option.any_eq_true _ _).1 hany
  obtain ⟨hreceived, hsent, hdone⟩ := of_decide_eq_true hfacts
  exact ⟨c, ⟨_, hc⟩, hreceived, hsent, hdone, received_in_order ⟨_, hc⟩ .right⟩

/-- The next header is that of a message that the peer has sent. -/
theorem Sound.next_header {i : Side} {hdr inhdr : Bytes} (h : c.Sound link timeouts)
    (hlength : hdr.length = 8) (hinhdr : inhdr.length = (link.kind i).hdrSize)
    (hpre : hdr ++ stream (link.kind i).frame (c i).received ++ inhdr <+: (c i).usock.rx) :
    ∃ msg ∈ (c i.other).sent, inhdr = (link.kind i).outhdr msg.length := by
  rw [List.append_assoc] at hpre
  obtain ⟨-, hframes⟩ := h.frames_isPrefix hlength hpre
  obtain ⟨rest, hrest⟩ := (link.kind i).decodable.isPrefix (h.received_lt i) (h.sent_lt i.other)
    ((List.prefix_append _ _).trans hframes)
  rw [← hrest, stream_append, List.prefix_append_right_inj] at hframes
  cases rest with
  | nil =>
    have hpos := (link.kind i).hdrSize_pos
    rw [stream_nil, List.prefix_nil] at hframes
    simp [hframes] at hinhdr
    omega
  | cons msg rest =>
    obtain ⟨t, ht⟩ := hframes
    rw [stream_cons, Kind.frame, List.append_assoc] at ht
    refine ⟨msg, ?_, (List.append_inj ht (by simp [hinhdr])).1⟩
    simp [← hrest]

/-- No peer sends a header that `sipc.c` does not accept. -/
theorem Sound.not_abnormal (h : c.Sound link timeouts) (i : Side) :
    ¬(c i).Abnormal (link.kind i) := by
  rintro ⟨hdr, inhdr, hlength, hinhdr, hnormal, hpre⟩
  obtain ⟨msg, -, rfl⟩ := h.next_header hlength hinhdr hpre
  simp [Kind.normal_outhdr] at hnormal

/-- Unless a peer takes too long with its header, no assertion fails and no state machine is given
an event that it does not expect, however the steps of the users, of the workers and of the timers
come after each other and whatever fails on the way. -/
theorem never_aborts (hc : run (step link) new es = some c) (hes : ∀ e ∈ es, e.2 ≠ .timeout)
    (i : Side) : (c i).aborted = false := by
  have hsound : c.Sound link false := sound_run hc fun e he htimeout => absurd htimeout (hes e he)
  by_contra htrue
  rcases (hsound.ok i).aborted (Bool.eq_true_of_not_eq_false htrue) with hfalse | habnormal
  · cases hfalse
  · exact hsound.not_abnormal i habnormal

theorem never_aborts_oneMessage : ∃ c,
    run (step overTcp) new (handshake ++ oneMessage) = some c ∧
    (∀ e ∈ handshake ++ oneMessage, e.2 ≠ .timeout) ∧ (c .right).aborted = false := by
  have hsome : (run (step overTcp) new (handshake ++ oneMessage)).isSome = true := by
    decide +kernel
  have htimeouts : ∀ e ∈ handshake ++ oneMessage, e.2 ≠ .timeout := by decide
  obtain ⟨c, hc⟩ := Option.isSome_iff_exists.1 hsome
  exact ⟨c, hc, htimeouts, never_aborts hc htimeouts .right⟩

/-- A session is the only pipe of the socket of its user, so `nn_excl_add` does not reject it when
`nn_pipebase_start` is called. -/
theorem pipebase_start_succeeds (hc : Reachable (step link) new c) {i : Side}
    (haborted : (c i).aborted = false) (hstate : (c i).state = .stopping_streamhdr) :
    (c i).pipebase_start.1 = true := by
  cases ((sound_reachable hc).ok i).phase haborted with
  | stopping _ hfresh => simp [Session.pipebase_start, Session.assert, hfresh.excl]
  | _ => simp_all [Session.new]

/-! ## At rest -/

/-- The session carries messages. -/
structure Live (s : Session) : Prop where
  aborted : s.aborted = false
  state : s.state = .active
  usock : s.usock.state = .active

/-- The library has nothing left to do on that side: no event is queued, no byte waits to be sent,
and when a byte is waited for, there is none. -/
structure AtRest (c : Connection) (i : Side) : Prop where
  events : (c i).events = []
  pollout : (c i).usock.pollout = false
  pollin : (c i).usock.pollin = true → (c i).usock.rx = (c i.other).usock.tx

/-- A session at rest has sent all bytes, and has a message for the user or waits for one. -/
theorem Live.at_rest {kind : Kind} {s : Session} (hlive : Live s) (h : s.Ok kind timeouts)
    (hevents : s.events = []) (hpollout : s.usock.pollout = false) :
    s.excl.outpipe = true ∧ s.usock.tx = Session.protohdr ++ stream kind.frame s.sent ∧
      (s.excl.inpipe = true ∨ (s.Reading kind ∧ s.usock.pollin = true)) := by
  obtain ⟨hs, hstate, hactive⟩ := hlive
  have htx : s.usock.tx = Session.protohdr ++ stream kind.frame s.sent := by
    have hsending := h.sending hs hactive
    have hall := hsending.tx
    rwa [hsending.iov hpollout, List.flatten_nil, List.append_nil, Session.written,
      if_neg (by simp [hstate])] at hall
  cases h.phase hs with
  | active outEvents inEvents _ _ _ hevents' _ hout hin =>
    obtain ⟨rfl, rfl⟩ := List.append_eq_nil_iff.1 (hevents'.symm.trans hevents)
    refine ⟨?_, htx, ?_⟩
    · rcases hout with ⟨-, -, -, ⟨-, houtpipe⟩ | ⟨hone, -⟩⟩ | ⟨-, -, -, ⟨-, hpoll⟩ | ⟨hone, -⟩⟩
      · exact houtpipe
      · cases hone
      · exact absurd ((hpoll hactive).symm.trans hpollout) (by simp)
      · cases hone
    · rcases hin with ⟨hreading, -, -, ⟨-, hpoll⟩ | ⟨hone, -⟩⟩ |
        ⟨-, -, -, ⟨-, hinpipe⟩ | ⟨hone, -⟩⟩ | ⟨hone, -⟩ | ⟨hone, -⟩
      · exact .inr ⟨hreading hactive, hpoll hactive⟩
      · cases hone
      · exact .inl hinpipe
      · cases hone
      · cases hone
      · cases hone
  | _ => simp_all [Session.new]

/-- What is left of the bytes is not a whole frame, so every message was cut out of them. -/
theorem received_eq {kind : Kind} {s : Session} {sent : List Bytes} (hreading : s.Reading kind)
    (hpollin : s.usock.pollin = true) (hreceived : ∀ msg ∈ s.received, msg.length < 2 ^ 64)
    (hsent : ∀ msg ∈ sent, msg.length < 2 ^ 64)
    (hrx : s.usock.rx = Session.protohdr ++ stream kind.frame sent) : s.received = sent := by
  obtain ⟨hdr, hlength, ⟨-, hasked⟩ | ⟨inhdr, -, hinhdr, -, hasked⟩⟩ := hreading
  · obtain ⟨hsum, hpos, hbatch⟩ := hasked.waits hpollin
    have hall := hasked.rx.symm.trans hrx
    rw [hbatch, List.append_nil, List.append_assoc] at hall
    obtain ⟨-, hall⟩ := List.append_inj hall hlength
    refine (kind.decodable.eq_of_rest hreceived hsent hall ?_).1
    intro msg t _ hframe
    have hlong := congrArg List.length hframe
    simp only [Kind.frame, List.length_append, Kind.length_outhdr] at hlong
    omega
  · obtain ⟨hsum, hpos, hbatch⟩ := hasked.waits hpollin
    have hall := hasked.rx.symm.trans hrx
    rw [hbatch, List.append_nil, List.append_assoc, List.append_assoc] at hall
    obtain ⟨-, hall⟩ := List.append_inj hall hlength
    refine (kind.decodable.eq_of_rest hreceived hsent hall ?_).1
    intro msg t hmsg hframe
    rw [Kind.frame, List.append_assoc] at hframe
    obtain ⟨rfl, hbody⟩ := List.append_inj hframe (by simp [hinhdr])
    rw [kind.size_outhdr hmsg] at hsum
    have hlong := congrArg List.length hbody
    simp only [List.length_append] at hlong
    omega

theorem Sound.delivered (h : c.Sound link timeouts) (hlive : ∀ i, Live (c i))
    (hrest : ∀ i, c.AtRest i) (i : Side) :
    (c i).excl.outpipe = true ∧
      ((c i).excl.inpipe = true ∨ (c i).received = (c i.other).sent) := by
  obtain ⟨houtpipe, -, hin⟩ := (hlive i).at_rest (h.ok i) (hrest i).events (hrest i).pollout
  refine ⟨houtpipe, ?_⟩
  rcases hin with hinpipe | ⟨hreading, hpollin⟩
  · exact .inl hinpipe
  · right
    obtain ⟨-, htx, -⟩ := (hlive i.other).at_rest (h.ok i.other) (hrest i.other).events
      (hrest i.other).pollout
    have hrx := (hrest i).pollin hpollin
    rw [htx, link.frame_other] at hrx
    exact received_eq hreading hpollin (h.received_lt i) (h.sent_lt i.other) hrx

/-- When the library has nothing left to do, the users have: a message can be sent from each side,
and on each side a message waits for the user or all messages of the other side were received. -/
theorem delivered_at_rest (hc : Reachable (step link) new c) (hlive : ∀ i, Live (c i))
    (hrest : ∀ i, c.AtRest i) (i : Side) :
    (c i).excl.outpipe = true ∧
      ((c i).excl.inpipe = true ∨ (c i).received = (c i.other).sent) :=
  (sound_reachable hc).delivered hlive hrest i

theorem delivered_at_rest_oneMessage : ∃ c, Reachable (step overTcp) new c ∧
    (∀ i, Live (c i)) ∧ (∀ i, c.AtRest i) ∧ (c .left).sent = [[1, 2, 3]] ∧
    ((c .right).excl.inpipe = true ∨ (c .right).received = (c .left).sent) := by
  have hany : (run (step overTcp) new (handshake ++ oneMessage)).any (fun c =>
      (c .left).sent = [[1, 2, 3]] ∧ ∀ i ∈ [Side.left, .right], (c i).aborted = false ∧
        (c i).state = .active ∧ (c i).usock.state = .active ∧ (c i).events = [] ∧
        (c i).usock.pollout = false ∧ (c i).usock.rx = (c i.other).usock.tx) = true := by
    decide +kernel
  obtain ⟨c, hc, hfacts⟩ := (Option.any_eq_true _ _).1 hany
  obtain ⟨hsent, hsides⟩ := of_decide_eq_true hfacts
  have hside (i : Side) := hsides i (by cases i <;> decide)
  have hlive (i : Side) : Live (c i) := ⟨(hside i).1, (hside i).2.1, (hside i).2.2.1⟩
  have hrest (i : Side) : c.AtRest i :=
    ⟨(hside i).2.2.2.1, (hside i).2.2.2.2.1, fun _ => (hside i).2.2.2.2.2⟩
  exact ⟨c, ⟨_, hc⟩, hlive, hrest, hsent, (delivered_at_rest ⟨_, hc⟩ hlive hrest .right).2⟩

/-! ## A timeout -/

/-- The worker is given all bytes that a socket waits for. -/
theorem fd_in_whole {u : Usock} {rest : Bytes} (hbatch : u.batch = []) (hlen : u.len ≤ batchSize)
    (hrest : u.len ≤ rest.length) :
    u.fd_in (some rest) = ({ u with
      batch := (rest.take batchSize).drop u.len
      rx := u.rx ++ rest.take batchSize
      buf := u.buf ++ (rest.take batchSize).take u.len
      len := 0
      pollin := false }, [.received]) := by
  have hlength : u.len - min u.len (min batchSize rest.length) = 0 := by omega
  simp [Usock.fd_in, Usock.recv_raw, hbatch, Nat.not_lt.2 hlen, hlength]

theorem step_update {i : Side} {s s' : Session} {e : Session.Event}
    (hs : s.step (link.kind i) e = some s') (hrx : s'.usock.rx <+: (c i.other).usock.tx) :
    step link (Function.update c i s) (i, e) = some (Function.update c i s') := by
  simp only [step, Function.update_self, hs, Option.bind_some, Function.update_of_ne i.other_ne,
    if_pos hrx, Function.update_idem]

/-- A session that waits for the header of its peer has asked its socket for it. -/
theorem asks_header {kind : Kind} {s : Session} (h : s.Ok kind timeouts)
    (haborted : s.aborted = false) (hstate : s.state = .protohdr) (hhdr : s.streamhdr = .receiving)
    (hevents : s.events = []) (hactive : s.usock.state = .active) :
    s.usock.Asked [] 8 ∧ s.usock.pollin = true := by
  cases h.phase haborted with
  | receiving _ _ _ hawaits hin =>
    rcases hawaits with ⟨-, hpoll⟩ | ⟨hone, -⟩ | ⟨hone, -⟩ | ⟨hone, -⟩
    · exact ⟨(hin hactive).1, hpoll hactive⟩
    all_goals simp [hevents] at hone
  | _ => simp_all [Session.new]

/-- A header that comes after the timer has expired and before it was stopped is an event that
`nn_streamhdr_handler` asserts not to get: the timer expires, the bytes are read, the event is
processed, and the process aborts. -/
theorem aborts_after_timeout (hc : Reachable (step link) new c) {i : Side}
    (haborted : (c i).aborted = false) (hstate : (c i).state = .protohdr)
    (hhdr : (c i).streamhdr = .receiving) (hevents : (c i).events = [])
    (hactive : (c i).usock.state = .active) (hpeer : 8 ≤ (c i.other).usock.tx.length) :
    ∃ msg c', run (step link) c [(i, .timeout), (i, .fd_in (some msg)), (i, .process none)] =
      some c' ∧ (c' i).aborted = true := by
  have hsound := sound_reachable hc
  obtain ⟨hasked, hpollin⟩ := asks_header (hsound.ok i) haborted hstate hhdr hevents hactive
  obtain ⟨hsum, -, hbatch⟩ := hasked.waits hpollin
  have hrx : (c i).usock.rx = (c i).usock.buf := by
    rw [hasked.rx, hbatch, List.append_nil, List.nil_append]
  obtain ⟨rest, hrest⟩ := hsound.rx i
  have hlen : (c i).usock.len ≤ rest.length := by
    have hlength := congrArg List.length hrest
    rw [List.length_append, hrx] at hlength
    omega
  have hfd := fd_in_whole hbatch (show _ ≤ 2048 by omega) hlen
  have htimeout : (c i).step (link.kind i) .timeout =
      some { c i with streamhdr := .stopping_timer_error } := by
    simp [Session.step, Session.advance, haborted, hevents, hstate, hhdr]
  have hreceived : Session.step (link.kind i) { c i with streamhdr := .stopping_timer_error }
      (.fd_in (some rest)) = some { c i with
        streamhdr := .stopping_timer_error
        usock := ((c i).usock.fd_in (some rest)).1
        events := [.usock .received] } := by
    simp [Session.step, Session.advance, Session.polled, Session.withUsock, Session.assert,
      haborted, hevents, hstate, hactive, hpollin, hfd]
  have hprocess : Session.step (link.kind i) { c i with
        streamhdr := .stopping_timer_error
        usock := ((c i).usock.fd_in (some rest)).1
        events := [.usock .received] } (.process none) = some { c i with
          streamhdr := .stopping_timer_error
          usock := ((c i).usock.fd_in (some rest)).1
          events := []
          aborted := true } := by
    simp [Session.step, Session.advance, Session.process, Session.streamhdr_usock, Session.assert,
      haborted, hstate]
  have hread : ((c i).usock.fd_in (some rest)).1.rx <+: (c i.other).usock.tx := by
    rw [hfd, ← hrest]
    exact (List.prefix_append_right_inj _).2 (List.take_prefix _ _)
  have hstep := step_update htimeout (hsound.rx i)
  rw [Function.update_eq_self] at hstep
  refine ⟨rest, Function.update c i { c i with
    streamhdr := .stopping_timer_error
    usock := ((c i).usock.fd_in (some rest)).1
    events := []
    aborted := true }, ?_, ?_⟩
  · rw [run_cons, hstep, Option.bind_some, run_cons, step_update hreceived hread, Option.bind_some,
      run_cons, step_update hprocess hread, Option.bind_some, run_nil]
  · rw [Function.update_self]

theorem aborts_after_timeout_slowPeer : ∃ c msg c', Reachable (step overTcp) new c ∧
    8 ≤ (c .right).usock.tx.length ∧
    run (step overTcp) c [(.left, .timeout), (.left, .fd_in (some msg)), (.left, .process none)] =
      some c' ∧ (c' .left).aborted = true := by
  have hany : (run (step overTcp) new (handshake.take 4)).any (fun c =>
      (c .left).aborted = false ∧ (c .left).state = .protohdr ∧ (c .left).streamhdr = .receiving ∧
        (c .left).events = [] ∧ (c .left).usock.state = .active ∧
        8 ≤ (c .right).usock.tx.length) = true := by
    decide +kernel
  obtain ⟨c, hc, hfacts⟩ := (Option.any_eq_true _ _).1 hany
  obtain ⟨haborted, hstate, hhdr, hevents, hactive, hpeer⟩ := of_decide_eq_true hfacts
  obtain ⟨msg, c', hrun, haborted'⟩ :=
    aborts_after_timeout ⟨_, hc⟩ haborted hstate hhdr hevents hactive hpeer
  exact ⟨c, msg, c', ⟨_, hc⟩, hpeer, hrun, haborted'⟩

end Connection

end NitroCloud.Nanomsg.Transport
