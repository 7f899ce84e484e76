import NitroCloud.Nanomsg.Surveyor
import Mathlib.Data.Fin.Basic
import Mathlib.Data.Nat.ModEq
import Mathlib.Logic.Function.Basic

/-!
# Surveyors and respondents

The survey protocol of the nanomsg library: `surveyor.c` and `xsurveyor.c` at one end of a pipe,
`respondent.c` and `xrespondent.c` at the other, and `dist.c` between a surveyor and its pipes.  Any
number of surveyors have a pipe to each of any number of respondents.  A survey goes to the pipes
that are ready for it, and a response that meets a pipe which is not ready is dropped.  A respondent
keeps the header of the survey that it holds, with the key of the pipe in front, and the key of an
answer's header says which pipe the answer goes to.

The users of the sockets may do anything in any order.  The state carries, as ghosts, the surveys
that were submitted, the answers that were given, and what was delivered.
-/

namespace NitroCloud.Nanomsg.Survey

open Bytes

/-! ## The respondent -/

/-- `NN_MAXTTL`, by default. -/
def maxttl : ℕ := 8

/-- The loop of `nn_xrespondent_recv` over the words of a message: the number of words up to the
first one with its top bit set. -/
def backtraceWords : ℕ → Bytes → Option ℕ
  | i, a :: b :: c :: d :: rest =>
    if getl [a, b, c, d] &&& 0x80000000 ≠ 0 then some (i + 1) else backtraceWords (i + 1) rest
  | _, _ => none

/-- `nn_respondent`: the first key of its pipes, and the header of the survey it holds while
`NN_RESPONDENT_INPROGRESS` is set. -/
structure Respondent where
  firstKey : UInt32
  backtrace : Option Bytes
deriving DecidableEq, Repr

namespace Respondent

/-- The key of a pipe: `nn_xrespondent_add` numbers them from the first key on. -/
def key (r : Respondent) (i : ℕ) : UInt32 := (r.firstKey + UInt32.ofNat i) &&& 0x7fffffff

/-- `nn_respondent_recv` of a message from the `i`-th pipe: the respondent, and the survey that its
user gets unless the message is malformed or has made too many hops. -/
def recv (r : Respondent) (i : ℕ) (msg : Bytes) : Respondent × Option Bytes :=
  match backtraceWords 0 msg with
  | some words =>
    if words ≤ maxttl then
      ({ r with backtrace := some (putl (r.key i) ++ msg.take (4 * words)) },
        some (msg.drop (4 * words)))
    else ({ r with backtrace := none }, none)
  | none => ({ r with backtrace := none }, none)

/-- The pipe with the given key, among the first `m`. -/
def pipeOf (r : Respondent) (m : ℕ) (key : UInt32) : Option (Fin m) :=
  (List.finRange m).find? fun i => r.key i = key

/-- `nn_respondent_send`: `EFSM` without a survey, and otherwise the respondent with the message and
the pipe it is for.  `nn_xrespondent_send` takes the key off the header. -/
def send (r : Respondent) (m : ℕ) (body : Bytes) :
    Option (Respondent × Option (Fin m × Bytes)) :=
  r.backtrace.map fun backtrace =>
    let r := { r with backtrace := none }
    if backtrace.length < 4 then (r, none)
    else (r, (r.pipeOf m (getl (backtrace.take 4))).map fun i => (i, backtrace.drop 4 ++ body))

end Respondent

/-! ## The system -/

/-- An answer that a respondent gave: the surveyor and the message of the survey that it held, and
the text of the answer. -/
structure Answer (m : ℕ) where
  surveyor : Fin m
  survey : Bytes
  body : Bytes
deriving DecidableEq

/-- What a surveyor's user received: the respondent at the other end of the pipe, the text, and the
number of surveys submitted so far. -/
structure Delivery (n : ℕ) where
  respondent : Fin n
  body : Bytes
  surveys : ℕ
deriving DecidableEq

/-- Surveyors, respondents and the pipes between them. -/
structure System (m n : ℕ) where
  surveyors : Fin m → Surveyor
  respondents : Fin n → Respondent
  /-- The messages on their way to a respondent and to a surveyor. -/
  down : Fin m → Fin n → List Bytes
  up : Fin m → Fin n → List Bytes
  /-- The surveys that the users of the surveyors have submitted. -/
  surveys : Fin m → List Bytes
  /-- The survey that a respondent holds, and the surveyor it came from. -/
  held : Fin n → Option (Fin m × Bytes)
  given : Fin n → List (Answer m)
  delivered : Fin m → List (Delivery n)

namespace System

variable {m n : ℕ}

/-- The sockets at the start, with the numbers that they draw at random. -/
def new (surveyid : Fin m → UInt32) (firstKey : Fin n → UInt32) : System m n where
  surveyors i := .new (surveyid i)
  respondents j := ⟨firstKey j, none⟩
  down _ _ := []
  up _ _ := []
  surveys _ := []
  held _ := none
  given _ := []
  delivered _ := []

inductive Event (m n : ℕ) where
  /-- `nn_send` on a surveyor; `ready` are the pipes in its distribution list. -/
  | survey (i : Fin m) (body : Bytes) (ready : Fin n → Bool)
  /-- The worker executes a task of the timer. -/
  | task (i : Fin m) (ready : Fin n → Bool)
  | expire (i : Fin m) (ready : Fin n → Bool)
  /-- The loop of `nn_recv` on a surveyor takes a message from a pipe. -/
  | collect (i : Fin m) (j : Fin n)
  /-- `nn_recv` on a surveyor with no survey in progress. -/
  | collectPassive (i : Fin m)
  /-- `nn_recv` on a respondent takes a message from a pipe. -/
  | take (j : Fin n) (i : Fin m)
  /-- `nn_send` on a respondent; `ready` says that the pipe can be written to. -/
  | respond (j : Fin n) (body : Bytes) (ready : Bool)

/-- `nn_dist_send` of the message that a surveyor sends, if any. -/
def distribute (down : Fin n → List Bytes) (msg : Option Bytes) (ready : Fin n → Bool)
    (j : Fin n) : List Bytes :=
  if ready j then down j ++ msg.toList else down j

/-- The system after a surveyor went on to `surveyor` and sent the message. -/
def broadcast (s : System m n) (i : Fin m) (sent : Surveyor × Option Bytes)
    (ready : Fin n → Bool) : System m n :=
  { s with
    surveyors := Function.update s.surveyors i sent.1
    down := Function.update s.down i (distribute (s.down i) sent.2 ready) }

def step (s : System m n) : Event m n → Option (System m n)
  | .survey i body ready =>
    if (s.surveyors i).aborted then none
    else
      some { s.broadcast i ((s.surveyors i).send body) ready with
        surveys := Function.update s.surveys i (s.surveys i ++ [body]) }
  | .task i ready =>
    if (s.surveyors i).aborted then none
    else (s.surveyors i).task.map fun sent => s.broadcast i sent ready
  | .expire i ready =>
    if (s.surveyors i).aborted then none
    else (s.surveyors i).expire.map fun sent => s.broadcast i sent ready
  | .collect i j =>
    if (s.surveyors i).aborted ∨ (s.surveyors i).inprogress = false then none
    else
      match s.up i j with
      | [] => none
      | msg :: rest =>
        let body := (s.surveyors i).accept msg
        some { s with
          up := Function.update s.up i (Function.update (s.up i) j rest)
          delivered := Function.update s.delivered i
            (s.delivered i ++ body.toList.map fun body => ⟨j, body, (s.surveys i).length⟩) }
  | .collectPassive i =>
    if (s.surveyors i).aborted ∨ (s.surveyors i).inprogress then none
    else some { s with
      surveyors := Function.update s.surveyors i (s.surveyors i).recvPassive.1 }
  | .take j i =>
    match s.down i j with
    | [] => none
    | msg :: rest =>
      let (respondent, survey) := (s.respondents j).recv i msg
      some { s with
        respondents := Function.update s.respondents j respondent
        down := Function.update s.down i (Function.update (s.down i) j rest)
        held := Function.update s.held j (survey.map fun _ => (i, msg)) }
  | .respond j body ready =>
    ((s.respondents j).send m body).map fun (respondent, response) =>
      { s with
        respondents := Function.update s.respondents j respondent
        up := match response, ready with
          | some (i, msg), true =>
            Function.update s.up i (Function.update (s.up i) j (s.up i j ++ [msg]))
          | _, _ => s.up
        held := Function.update s.held j none
        given := Function.update s.given j
          (s.given j ++ (s.held j).toList.map fun survey => ⟨survey.1, survey.2, body⟩) }

/-- The states that the sockets can reach. -/
def Reachable (surveyid : Fin m → UInt32) (firstKey : Fin n → UInt32) (s : System m n) : Prop :=
  Machine.Reachable step (new surveyid firstKey) s

end System

/-! ## Messages -/

/-- The message is a survey that was submitted, with its identifier in front. -/
def IsSurvey (first : UInt32) (surveys : List Bytes) (msg : Bytes) : Prop :=
  ∃ k text, surveys[k]? = some text ∧ msg = putl (Surveyor.surveyId first (k + 1)) ++ text

theorem isSurvey_last (first : UInt32) (surveys : List Bytes) (body : Bytes) :
    IsSurvey first (surveys ++ [body])
      (putl (Surveyor.nextId (Surveyor.surveyId first surveys.length)) ++ body) :=
  ⟨surveys.length, body, by simp, rfl⟩

@[simp] theorem take_putl (val : UInt32) (rest : Bytes) : (putl val ++ rest).take 4 = putl val := by
  rw [List.take_append_of_le_length (length_putl val).ge,
    List.take_of_length_le (length_putl val).le]

@[simp] theorem drop_putl (val : UInt32) (rest : Bytes) : (putl val ++ rest).drop 4 = rest :=
  List.drop_left' (length_putl val)

/-- A header whose first word has its top bit set is that word. -/
theorem backtraceWords_putl {val : UInt32} (h : 2 ^ 31 ≤ val.toNat) (rest : Bytes) :
    backtraceWords 0 (putl val ++ rest) = some 1 := by
  have hlength := length_putl val
  obtain ⟨a, b, c, d, hputl⟩ : ∃ a b c d, putl val = [a, b, c, d] := by
    match hbytes : putl val, hlength with
    | [a, b, c, d], _ => exact ⟨a, b, c, d, rfl⟩
  have hgetl : getl [a, b, c, d] = val := by rw [← hputl, getl_putl]
  simp only [hputl, List.cons_append, List.nil_append, backtraceWords, hgetl]
  rw [if_pos ((and_top_ne_zero_iff val).2 h)]

theorem top_surveyId (first : UInt32) (k : ℕ) :
    2 ^ 31 ≤ (Surveyor.surveyId first (k + 1)).toNat := by
  rw [Surveyor.toNat_surveyId]
  exact Nat.le_add_right _ _

namespace Respondent

variable {r : Respondent}

/-- A respondent that takes a survey keeps its identifier behind the key of the pipe. -/
theorem recv_survey {first : UInt32} {surveys : List Bytes} {msg : Bytes}
    (h : IsSurvey first surveys msg) (i : ℕ) :
    (r.recv i msg).1 = { r with backtrace := some (putl (r.key i) ++ msg.take 4) } ∧
      (r.recv i msg).2 = some (msg.drop 4) := by
  obtain ⟨k, text, -, rfl⟩ := h
  have hwords := backtraceWords_putl (top_surveyId first k) text
  simp only [recv, hwords, maxttl, Nat.mul_one, Nat.one_le_ofNat, if_true, and_self]

/-- The keys of different pipes are different. -/
theorem key_inj {i j : ℕ} (hi : i < 2 ^ 31) (hj : j < 2 ^ 31) (h : r.key i = r.key j) : i = j := by
  have hnat := congrArg UInt32.toNat h
  rw [key, key, toNat_and_low, toNat_and_low, UInt32.toNat_add, UInt32.toNat_add,
    UInt32.toNat_ofNat', UInt32.toNat_ofNat'] at hnat
  omega

theorem pipeOf_key {m : ℕ} (hm : m ≤ 2 ^ 31) (i : Fin m) : r.pipeOf m (r.key i) = some i := by
  rw [pipeOf, List.find?_eq_some_iff_append]
  have hi := i.isLt
  obtain ⟨before, after, hsplit⟩ := List.append_of_mem (List.mem_finRange i)
  refine ⟨by simp, before, after, hsplit, fun j hj => ?_⟩
  have hnodup := List.nodup_finRange m
  rw [hsplit] at hnodup
  have hne : j ≠ i := by
    rintro rfl
    exact (List.disjoint_of_nodup_append hnodup) hj (by simp)
  have hj := j.isLt
  simpa using fun hkey => hne (Fin.ext (key_inj (hj.trans_le hm) (hi.trans_le hm) hkey))

/-- An answer goes to the pipe that the survey came from, with the survey's identifier. -/
theorem send_held {m : ℕ} (hm : m ≤ 2 ^ 31) {i : Fin m} {header : Bytes}
    (h : r.backtrace = some (putl (r.key i) ++ header)) (body : Bytes) :
    r.send m body = some ({ r with backtrace := none }, some (i, header ++ body)) := by
  have hlength : ¬ (putl (r.key i) ++ header).length < 4 := by simp
  have hpipe : Respondent.pipeOf { r with backtrace := none } m (r.key i) = some i :=
    pipeOf_key (r := { r with backtrace := none }) hm i
  simp only [send, h, Option.map_some, if_neg hlength, take_putl, getl_putl, drop_putl, hpipe]

end Respondent

/-! ## The invariant -/

section Known

variable {m n : ℕ} {first : UInt32} {i : Fin m} {surveys surveys' : List Bytes} {msg : Bytes}

theorem getElem?_of_isPrefix (h : surveys <+: surveys') {k : ℕ} {text : Bytes}
    (hk : surveys[k]? = some text) : surveys'[k]? = some text := by
  obtain ⟨more, rfl⟩ := h
  rw [List.getElem?_append_left (List.getElem?_eq_some_iff.1 hk).1, hk]

theorem IsSurvey.mono (h : IsSurvey first surveys msg) (hsurveys : surveys <+: surveys') :
    IsSurvey first surveys' msg := by
  obtain ⟨k, text, hk, rfl⟩ := h
  exact ⟨k, text, getElem?_of_isPrefix hsurveys hk, rfl⟩

/-- What is known of a response that is on its way to a surveyor. -/
def IsResponse (first : UInt32) (i : Fin m) (surveys : List Bytes) (given : List (Answer m))
    (msg : Bytes) : Prop :=
  ∃ k text body, surveys[k]? = some text ∧
    msg = putl (Surveyor.surveyId first (k + 1)) ++ body ∧
    ⟨i, putl (Surveyor.surveyId first (k + 1)) ++ text, body⟩ ∈ given

theorem IsResponse.mono {given given' : List (Answer m)} (h : IsResponse first i surveys given msg)
    (hsurveys : surveys <+: surveys') (hgiven : given ⊆ given') :
    IsResponse first i surveys' given' msg := by
  obtain ⟨k, text, body, hk, rfl, hmem⟩ := h
  exact ⟨k, text, body, getElem?_of_isPrefix hsurveys hk, rfl, hgiven hmem⟩

/-- What is known of a response that was delivered: it answers a survey submitted before, whose
number agrees modulo `2 ^ 31` with that of the survey then in progress. -/
def IsCurrent (first : UInt32) (i : Fin m) (surveys : List Bytes) (given : Fin n → List (Answer m))
    (d : Delivery n) : Prop :=
  ∃ k text, surveys[k]? = some text ∧ k + 1 ≤ d.surveys ∧ k + 1 ≡ d.surveys [MOD 2 ^ 31] ∧
    ⟨i, putl (Surveyor.surveyId first (k + 1)) ++ text, d.body⟩ ∈ given d.respondent

theorem IsCurrent.mono {given given' : Fin n → List (Answer m)} {d : Delivery n}
    (h : IsCurrent first i surveys given d) (hsurveys : surveys <+: surveys')
    (hgiven : ∀ j, given j ⊆ given' j) : IsCurrent first i surveys' given' d := by
  obtain ⟨k, text, hk, hle, hmod, hmem⟩ := h
  exact ⟨k, text, getElem?_of_isPrefix hsurveys hk, hle, hmod, hgiven _ hmem⟩

/-- The header that a respondent keeps for the survey that it holds. -/
def Respondent.Holds (surveyid : Fin m → UInt32) (surveys : Fin m → List Bytes) (r : Respondent) :
    Option (Fin m × Bytes) → Prop
  | none => r.backtrace = none
  | some (i, msg) => IsSurvey (surveyid i) (surveys i) msg ∧
    r.backtrace = some (putl (r.key i) ++ msg.take 4)

theorem Respondent.Holds.mono {surveyid : Fin m → UInt32} {surveys surveys' : Fin m → List Bytes}
    {r : Respondent} {held : Option (Fin m × Bytes)} (h : r.Holds surveyid surveys held)
    (hsurveys : ∀ i, surveys i <+: surveys' i) : r.Holds surveyid surveys' held := by
  rcases held with _ | ⟨i, msg⟩
  · exact h
  · exact ⟨h.1.mono (hsurveys i), h.2⟩

/-- A response with the identifier of the survey in progress answers it, or one that is a multiple
of `2 ^ 31` surveys older. -/
theorem IsResponse.accept {given : Fin n → List (Answer m)} {j : Fin n} {surveyor : Surveyor}
    {body : Bytes} (h : IsResponse first i surveys (given j) msg)
    (hid : surveyor.surveyid = Surveyor.surveyId first surveys.length)
    (haccept : surveyor.accept msg = some body) :
    IsCurrent first i surveys given ⟨j, body, surveys.length⟩ := by
  obtain ⟨k, text, body', hk, rfl, hmem⟩ := h
  have hlt := (List.getElem?_eq_some_iff.1 hk).1
  unfold Surveyor.accept at haccept
  split_ifs at haccept with hshort hstale
  rw [drop_putl] at haccept
  cases haccept
  rw [not_not, take_putl, getl_putl, hid] at hstale
  obtain ⟨last, hlast⟩ : ∃ last, surveys.length = last + 1 := Nat.exists_eq_add_one.2 (by omega)
  rw [hlast] at hstale
  refine ⟨k, text, hk, hlt, ?_, hmem⟩
  simp only [hlast]
  exact Surveyor.surveyId_inj hstale

end Known

namespace System

variable {m n : ℕ} {surveyid : Fin m → UInt32} {firstKey : Fin n → UInt32} {s s' : System m n}

/-- The invariant of the sockets. -/
structure Ok (surveyid : Fin m → UInt32) (s : System m n) : Prop where
  surveyors : ∀ i, (s.surveyors i).Ok
  ids : ∀ i, (s.surveyors i).surveyid = Surveyor.surveyId (surveyid i) (s.surveys i).length
  tosend : ∀ i, (s.surveyors i).inprogress = true →
    IsSurvey (surveyid i) (s.surveys i) (s.surveyors i).tosend
  down : ∀ i j, ∀ msg ∈ s.down i j, IsSurvey (surveyid i) (s.surveys i) msg
  held : ∀ j, (s.respondents j).Holds surveyid s.surveys (s.held j)
  up : ∀ i j, ∀ msg ∈ s.up i j, IsResponse (surveyid i) i (s.surveys i) (s.given j) msg
  delivered : ∀ i, ∀ d ∈ s.delivered i, IsCurrent (surveyid i) i (s.surveys i) s.given d

theorem ok_new : Ok surveyid (new surveyid firstKey) where
  surveyors i := Surveyor.ok_new _
  ids _ := rfl
  tosend i hi := by simp [new, Surveyor.new, Surveyor.inprogress] at hi
  down := by simp [new]
  held _ := rfl
  up := by simp [new]
  delivered := by simp [new]

/-- What a predicate says at one place and elsewhere, it says after an update. -/
theorem forall_update {α β : Type} [DecidableEq α] {f : α → β} {a : α} {b : β}
    {P : α → β → Prop} (hb : P a b) (h : ∀ c, c ≠ a → P c (f c)) (c : α) :
    P c (Function.update f a b c) :=
  (Function.forall_update_iff f P).2 ⟨hb, h⟩ c

theorem mem_distribute {down : Fin n → List Bytes} {sent : Option Bytes} {ready : Fin n → Bool}
    {j : Fin n} {msg : Bytes} (h : msg ∈ distribute down sent ready j) :
    msg ∈ down j ∨ sent = some msg := by
  unfold distribute at h
  split_ifs at h
  · simpa [eq_comm] using h
  · exact .inl h

/-- A surveyor that sends a survey, of those submitted so far and one more. -/
theorem Ok.broadcast (h : Ok surveyid s) {i : Fin m} {sent : Surveyor × Option Bytes}
    {surveys : Fin m → List Bytes} (ready : Fin n → Bool) (hok : sent.1.Ok)
    (hsurveys : ∀ i, s.surveys i <+: surveys i) (hothers : ∀ k, k ≠ i → surveys k = s.surveys k)
    (hid : sent.1.surveyid = Surveyor.surveyId (surveyid i) (surveys i).length)
    (htosend : IsSurvey (surveyid i) (surveys i) sent.1.tosend)
    (hsent : ∀ msg ∈ sent.2, IsSurvey (surveyid i) (surveys i) msg) :
    Ok surveyid { s.broadcast i sent ready with surveys := surveys } where
  surveyors k := by
    refine forall_update (P := fun _ (surveyor : Surveyor) => surveyor.Ok) hok (fun k _ => ?_) k
    exact h.surveyors k
  ids k := by
    refine forall_update (P := fun k (surveyor : Surveyor) => surveyor.surveyid =
      Surveyor.surveyId (surveyid k) (surveys k).length) hid (fun k hk => ?_) k
    rw [hothers k hk]
    exact h.ids k
  tosend k := by
    refine forall_update (P := fun k (surveyor : Surveyor) => surveyor.inprogress = true →
      IsSurvey (surveyid k) (surveys k) surveyor.tosend) (fun _ => htosend) (fun k _ hk => ?_) k
    exact (h.tosend k hk).mono (hsurveys k)
  down k := by
    refine forall_update (P := fun k (queues : Fin n → List Bytes) => ∀ j, ∀ msg ∈ queues j,
      IsSurvey (surveyid k) (surveys k) msg) (fun j msg hmsg => ?_) (fun k _ j msg hmsg => ?_) k
    · rcases mem_distribute hmsg with hmsg | hmsg
      · exact (h.down i j msg hmsg).mono (hsurveys i)
      · exact hsent msg hmsg
    · exact (h.down k j msg hmsg).mono (hsurveys k)
  held j := (h.held j).mono hsurveys
  up k j msg hmsg := (h.up k j msg hmsg).mono (hsurveys k) (List.Subset.refl _)
  delivered k d hd := (h.delivered k d hd).mono (hsurveys k) fun _ => List.Subset.refl _

theorem Ok.survey {i : Fin m} {body : Bytes} {ready : Fin n → Bool} (h : Ok surveyid s)
    (hstep : s.step (.survey i body ready) = some s') : Ok surveyid s' := by
  simp only [System.step, Option.ite_none_left_eq_some] at hstep
  obtain ⟨-, ⟨⟩⟩ := hstep
  obtain ⟨hok, hid, htosend, hsent⟩ := Surveyor.of_send (h.surveyors i) body
  rw [h.ids i] at hid htosend hsent
  have hlast := isSurvey_last (surveyid i) (s.surveys i) body
  refine h.broadcast ready hok (fun k => ?_) (fun k hk => Function.update_of_ne hk _ _) ?_ ?_ ?_
  · refine forall_update (P := fun k surveys => s.surveys k <+: surveys) ?_ (fun k _ => ?_) k
    · exact List.prefix_append _ _
    · exact List.prefix_rfl
  · rw [hid, Function.update_self, List.length_append]
    rfl
  · rw [htosend, Function.update_self]
    exact hlast
  · intro msg hmsg
    rw [hsent msg hmsg, Function.update_self]
    exact hlast

/-- A step of the worker that serves a surveyor. -/
theorem Ok.worker {i : Fin m} {sent : Surveyor × Option Bytes} (ready : Fin n → Bool)
    (h : Ok surveyid s) (hok : sent.1.Ok) (hkept : Surveyor.Kept (s.surveyors i) sent.1 sent.2) :
    Ok surveyid (s.broadcast i sent ready) := by
  have htosend := h.tosend i hkept.inprogress
  refine h.broadcast ready hok (fun _ => List.prefix_rfl) (fun _ _ => rfl) ?_ ?_ ?_
  · rw [hkept.surveyid]
    exact h.ids i
  · rw [hkept.tosend]
    exact htosend
  · intro msg hmsg
    rw [hkept.sent msg hmsg]
    exact htosend

/-- The loop of a surveyor's `nn_recv` takes a message off a pipe, and delivers it when it answers
the survey in progress. -/
theorem Ok.collect {i : Fin m} {j : Fin n} (h : Ok surveyid s)
    (hstep : s.step (.collect i j) = some s') : Ok surveyid s' := by
  simp only [System.step, Option.ite_none_left_eq_some] at hstep
  obtain ⟨-, hstep⟩ := hstep
  split at hstep
  · cases hstep
  · next msg rest hqueue =>
    cases hstep
    have hup := h.up i j
    rw [hqueue, List.forall_mem_cons] at hup
    refine ⟨h.surveyors, h.ids, h.tosend, h.down, h.held, fun k => ?_, fun k => ?_⟩
    · refine forall_update (P := fun k (queues : Fin n → List Bytes) => ∀ l, ∀ msg ∈ queues l,
        IsResponse (surveyid k) k (s.surveys k) (s.given l) msg) ?_ (fun k _ => h.up k) k
      exact forall_update (P := fun l queue => ∀ msg ∈ queue,
        IsResponse (surveyid i) i (s.surveys i) (s.given l) msg) hup.2 fun l _ => h.up i l
    · refine forall_update (P := fun k deliveries => ∀ d ∈ deliveries,
        IsCurrent (surveyid k) k (s.surveys k) s.given d) ?_ (fun k _ => h.delivered k) k
      refine List.forall_mem_append.2 ⟨h.delivered i, ?_⟩
      rcases hbody : (s.surveyors i).accept msg with _ | body
      · simp
      · simpa using hup.1.accept (h.ids i) hbody

theorem Ok.collectPassive {i : Fin m} (h : Ok surveyid s)
    (hstep : s.step (.collectPassive i) = some s') : Ok surveyid s' := by
  simp only [System.step, Option.ite_none_left_eq_some] at hstep
  obtain ⟨-, ⟨⟩⟩ := hstep
  obtain ⟨hok, hid, hprogress, htosend⟩ := Surveyor.of_recvPassive (h.surveyors i)
  refine ⟨fun k => ?_, fun k => ?_, fun k => ?_, h.down, h.held, h.up, h.delivered⟩
  · refine forall_update (P := fun _ (surveyor : Surveyor) => surveyor.Ok) hok (fun k _ => ?_) k
    exact h.surveyors k
  · exact forall_update (P := fun k (surveyor : Surveyor) => surveyor.surveyid =
      Surveyor.surveyId (surveyid k) (s.surveys k).length) (hid.trans (h.ids i))
      (fun k _ => h.ids k) k
  · refine forall_update (P := fun k (surveyor : Surveyor) => surveyor.inprogress = true →
      IsSurvey (surveyid k) (s.surveys k) surveyor.tosend) ?_ (fun k _ => h.tosend k) k
    rw [hprogress, htosend]
    exact h.tosend i

/-- A respondent takes a survey off a pipe and keeps its header. -/
theorem Ok.take {j : Fin n} {i : Fin m} (h : Ok surveyid s)
    (hstep : s.step (.take j i) = some s') : Ok surveyid s' := by
  simp only [System.step] at hstep
  split at hstep
  · cases hstep
  · next msg rest hqueue =>
    have hdown := h.down i j
    rw [hqueue, List.forall_mem_cons] at hdown
    obtain ⟨hrespondent, hsurvey⟩ := Respondent.recv_survey (r := s.respondents j) hdown.1 i
    cases hstep
    refine ⟨h.surveyors, h.ids, h.tosend, fun k => ?_, fun l => ?_, h.up, h.delivered⟩
    · refine forall_update (P := fun k (queues : Fin n → List Bytes) => ∀ l, ∀ msg ∈ queues l,
        IsSurvey (surveyid k) (s.surveys k) msg) ?_ (fun k _ => h.down k) k
      exact forall_update (P := fun _ queue => ∀ msg ∈ queue,
        IsSurvey (surveyid i) (s.surveys i) msg) hdown.2 fun l _ => h.down i l
    · by_cases hl : l = j
      · subst hl
        simp only [Function.update_self, hsurvey, Option.map_some, hrespondent]
        exact ⟨hdown.1, rfl⟩
      · simp only [Function.update_of_ne hl]
        exact h.held l

/-- A respondent answers the survey it holds, to the surveyor it came from. -/
theorem Ok.respond {j : Fin n} {body : Bytes} {ready : Bool} (hm : m ≤ 2 ^ 31) (h : Ok surveyid s)
    (hstep : s.step (.respond j body ready) = some s') : Ok surveyid s' := by
  simp only [System.step, Option.map_eq_some_iff] at hstep
  obtain ⟨⟨respondent, response⟩, hsend, rfl⟩ := hstep
  have hheld := h.held j
  rcases hcase : s.held j with _ | ⟨i, msg⟩
  · rw [hcase] at hheld
    rw [Respondent.send, show (s.respondents j).backtrace = none from hheld] at hsend
    cases hsend
  · rw [hcase] at hheld
    obtain ⟨hmsg, hbacktrace⟩ := hheld
    rw [Respondent.send_held hm hbacktrace] at hsend
    cases hsend
    have hgiven (l : Fin n) : s.given l ⊆ Function.update s.given j
        (s.given j ++ [⟨i, msg, body⟩]) l := by
      refine forall_update (P := fun l given => s.given l ⊆ given) ?_ (fun l _ => ?_) l
      · exact List.subset_append_left _ _
      · exact List.Subset.refl _
    have hold (k : Fin m) (l : Fin n) (w : Bytes) (hw : w ∈ s.up k l) :
        IsResponse (surveyid k) k (s.surveys k)
          (Function.update s.given j (s.given j ++ [⟨i, msg, body⟩]) l) w :=
      (h.up k l w hw).mono List.prefix_rfl (hgiven l)
    simp only [Option.toList_some, List.map_cons, List.map_nil]
    refine ⟨h.surveyors, h.ids, h.tosend, h.down, fun l => ?_, fun k => ?_, fun k d hd => ?_⟩
    · by_cases hl : l = j
      · subst hl
        simp only [Function.update_self]
        rfl
      · simp only [Function.update_of_ne hl]
        exact h.held l
    · cases ready with
      | false => exact hold k
      | true =>
        refine forall_update (P := fun k (queues : Fin n → List Bytes) => ∀ l, ∀ w ∈ queues l,
          IsResponse (surveyid k) k (s.surveys k)
            (Function.update s.given j (s.given j ++ [⟨i, msg, body⟩]) l) w) ?_ (fun k _ => ?_) k
        swap
        · exact hold k
        refine forall_update (P := fun l queue => ∀ w ∈ queue,
          IsResponse (surveyid i) i (s.surveys i)
            (Function.update s.given j (s.given j ++ [⟨i, msg, body⟩]) l) w) ?_ fun l _ => hold i l
        refine List.forall_mem_append.2 ⟨hold i j, ?_⟩
        obtain ⟨k', text, hk', rfl⟩ := hmsg
        rw [List.forall_mem_singleton, take_putl]
        exact ⟨k', text, body, hk', rfl, by simp⟩
    · exact (h.delivered k d hd).mono List.prefix_rfl hgiven

theorem Ok.step {e : Event m n} (hm : m ≤ 2 ^ 31) (h : Ok surveyid s)
    (hstep : s.step e = some s') : Ok surveyid s' := by
  cases e with
  | survey i body ready => exact h.survey hstep
  | task i ready =>
    simp only [System.step, Option.ite_none_left_eq_some, Option.map_eq_some_iff] at hstep
    obtain ⟨-, sent, hsent, rfl⟩ := hstep
    obtain ⟨hok, hkept⟩ := Surveyor.of_task (h.surveyors i) hsent
    exact h.worker ready hok hkept
  | expire i ready =>
    simp only [System.step, Option.ite_none_left_eq_some, Option.map_eq_some_iff] at hstep
    obtain ⟨-, sent, hsent, rfl⟩ := hstep
    obtain ⟨hok, hkept⟩ := Surveyor.of_expire (h.surveyors i) hsent
    exact h.worker ready hok hkept
  | collect i j => exact h.collect hstep
  | collectPassive i => exact h.collectPassive hstep
  | take j i => exact h.take hstep
  | respond j body ready => exact h.respond hm hstep

theorem Reachable.ok (hm : m ≤ 2 ^ 31) (h : Reachable surveyid firstKey s) : Ok surveyid s :=
  Machine.Reachable.invariant (Ok surveyid) ok_new (fun _ _ _ hok => hok.step hm) h

/-- Whatever the users of the sockets do and in whichever order the worker runs: no state machine is
fed what it cannot take, and a text that a surveyor's user receives is the answer that the
respondent at the other end gave to a survey of this surveyor, namely to the one in progress or to
one that is a multiple of `2 ^ 31` surveys older. -/
theorem delivered_current (hm : m ≤ 2 ^ 31) (h : Reachable surveyid firstKey s) (i : Fin m) :
    (s.surveyors i).aborted = false ∧
      ∀ d ∈ s.delivered i, ∃ k text, (s.surveys i)[k]? = some text ∧ k + 1 ≤ d.surveys ∧
        k + 1 ≡ d.surveys [MOD 2 ^ 31] ∧
        ⟨i, putl (Surveyor.surveyId (surveyid i) (k + 1)) ++ text, d.body⟩ ∈ s.given d.respondent :=
  ⟨((h.ok hm).surveyors i).running, (h.ok hm).delivered i⟩

/-- One surveyor and one respondent, which answers the first survey when the second one was already
submitted and then answers the second. -/
def lateAnswer : List (Event 1 1) :=
  [.survey 0 [65] fun _ => true, .take 0 0, .survey 0 [66] fun _ => true, .respond 0 [97] true,
    .collect 0 0, .task 0 fun _ => true, .task 0 fun _ => true, .take 0 0, .respond 0 [98] true,
    .collect 0 0]

theorem delivered_current_lateAnswer :
    ∃ s : System 1 1, Reachable (fun _ => 7) (fun _ => 9) s ∧
      s.delivered 0 = [⟨0, [98], 2⟩] ∧
      ∀ d ∈ s.delivered 0, ∃ k text, (s.surveys 0)[k]? = some text ∧ k + 1 ≤ d.surveys ∧
        k + 1 ≡ d.surveys [MOD 2 ^ 31] ∧
        ⟨0, putl (Surveyor.surveyId 7 (k + 1)) ++ text, d.body⟩ ∈ s.given d.respondent := by
  have hrun : (Machine.run step (new (fun _ => 7) fun _ => 9) lateAnswer).map
      (fun s => s.delivered 0) = some [⟨0, [98], 2⟩] := by decide +kernel
  obtain ⟨s, hs, hdelivered⟩ := Option.map_eq_some_iff.1 hrun
  have hreach : Reachable (fun _ => 7) (fun _ => 9) s := ⟨lateAnswer, hs⟩
  exact ⟨s, hreach, hdelivered, (delivered_current (by decide) hreach 0).2⟩

end System

end NitroCloud.Nanomsg.Survey
