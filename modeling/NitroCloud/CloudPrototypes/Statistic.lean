import NitroCloud.CloudPrototypes.Inproc
import NitroCloud.CsBoost.MainTest

/-!
# The dump of the results

`statistic::ResultCollection` of `cloud_prototypes/include/command/statistic.h`.  `Dump` writes a
line for each result, with its number, the label of the request and the label of the response, but
only the response behind them.  So the text determines the responses (`dump_eq_iff`), and it
determines the requests only where the responses do.
-/

namespace NitroCloud.Statistic

open Bytes Stream

/-- The line feed that ends a line of the dump. -/
def LF : UInt8 := 10

/-- The part of a line in front of the response. -/
def label (rowCount : ℕ) : Bytes :=
  putNat rowCount ++ ascii ". Command Send Buffer = " ++ ascii ", Command Receive Buffer = "

/-- The loop of `Dump`, with the text collected in `resultBuffer`. -/
def dumpLoop : ℕ → List Result → Bytes → Bytes
  | _, [], resultBuffer => resultBuffer
  | rowCount, result :: rest, resultBuffer =>
    dumpLoop (rowCount + 1) rest
      (resultBuffer ++ (label rowCount ++ result.response ++ ascii "\n"))

/-- `ResultCollection::Dump`: the text written for a collection. -/
def dump (m_collection : List Result) : Bytes := dumpLoop 0 m_collection []

/-! ## The lines -/

/-- The lines for responses, from a number on. -/
def lines : ℕ → List Bytes → Bytes
  | _, [] => []
  | rowCount, response :: rest =>
    label rowCount ++ (response ++ LF :: lines (rowCount + 1) rest)

theorem ascii_newline : ascii "\n" = [LF] := rfl

theorem dumpLoop_eq (rowCount : ℕ) (results : List Result) (resultBuffer : Bytes) :
    dumpLoop rowCount results resultBuffer =
      resultBuffer ++ lines rowCount (results.map Result.response) := by
  induction results generalizing rowCount resultBuffer with
  | nil => rw [dumpLoop, List.map_nil, lines, List.append_nil]
  | cons result rest ih =>
    rw [dumpLoop, ih, List.map_cons, lines, ascii_newline]
    simp only [List.append_assoc, List.singleton_append]

/-- The text depends on the responses alone. -/
theorem dump_eq_lines (results : List Result) :
    dump results = lines 0 (results.map Result.response) :=
  dumpLoop_eq 0 results []

theorem flatten_zipIdx (results : List Result) (rowCount : ℕ) :
    ((results.zipIdx rowCount).map fun numbered =>
      label numbered.2 ++ numbered.1.response ++ ascii "\n").flatten =
      lines rowCount (results.map Result.response) := by
  induction results generalizing rowCount with
  | nil => rfl
  | cons result rest ih =>
    rw [List.zipIdx_cons, List.map_cons, List.flatten_cons, ih, List.map_cons, lines, ascii_newline]
    simp only [List.append_assoc, List.singleton_append]

/-- `Dump` of `boost_cloud` writes the same text. -/
theorem dump_eq_boost (results : List Result) : CsBoost.dump results = dump results := by
  rw [dump_eq_lines, ← flatten_zipIdx results 0]
  rfl

theorem lines_cons_ne_nil (rowCount : ℕ) (response : Bytes) (rest : List Bytes) :
    lines rowCount (response :: rest) ≠ [] := by
  simp [lines]

/-- The lines determine the responses, when these have no line feed. -/
theorem lines_inj {rowCount : ℕ} {l₁ l₂ : List Bytes} (h₁ : ∀ response ∈ l₁, LF ∉ response)
    (h₂ : ∀ response ∈ l₂, LF ∉ response) (h : lines rowCount l₁ = lines rowCount l₂) :
    l₁ = l₂ := by
  induction l₁ generalizing rowCount l₂ with
  | nil =>
    cases l₂ with
    | nil => rfl
    | cons response₂ rest₂ => exact absurd h.symm (lines_cons_ne_nil _ _ _)
  | cons response₁ rest₁ ih =>
    cases l₂ with
    | nil => exact absurd h (lines_cons_ne_nil _ _ _)
    | cons response₂ rest₂ =>
      rw [List.forall_mem_cons] at h₁ h₂
      rw [lines, lines] at h
      -- the labels are the same, and the first line feed ends the response
      have hline := List.append_cancel_left h
      obtain ⟨hresponse, hrest⟩ := IStream.append_cons_inj h₁.1 h₂.1 hline
      rw [hresponse, ih h₁.2 h₂.2 hrest]

/-- Results without line feeds are dumped alike exactly when their responses are the same. -/
theorem dump_eq_iff {l₁ l₂ : List Result} (h₁ : ∀ result ∈ l₁, LF ∉ result.response)
    (h₂ : ∀ result ∈ l₂, LF ∉ result.response) :
    dump l₁ = dump l₂ ↔ l₁.map Result.response = l₂.map Result.response := by
  rw [dump_eq_lines, dump_eq_lines]
  constructor
  · exact lines_inj (List.forall_mem_map.2 h₁) (List.forall_mem_map.2 h₂)
  · intro h
    rw [h]

/-! ## What the dump keeps -/

/-- Results are their requests and their responses. -/
theorem eq_iff_map {l₁ l₂ : List Result} :
    l₁ = l₂ ↔ l₁.map Result.request = l₂.map Result.request ∧
      l₁.map Result.response = l₂.map Result.response := by
  constructor
  · rintro rfl
    exact ⟨rfl, rfl⟩
  · rintro ⟨hrequest, hresponse⟩
    have hpairs (l : List Result) : (l.map fun result => (result.request, result.response)) =
        (l.map Result.request).zip (l.map Result.response) := (List.zip_map' ..).symm
    have hinj : Function.Injective fun result : Result => (result.request, result.response) := by
      rintro ⟨request, response⟩ ⟨request', response'⟩ h
      cases h
      rfl
    apply List.map_injective_iff.2 hinj
    rw [hpairs, hpairs, hrequest, hresponse]

/-- For any two lists of results without line feeds: that their dumps are the same implies that the
lists are, if and only if they do not have the same responses to different requests. -/
theorem dump_keeps_iff (l₁ l₂ : List Result)
    (h₁ : ∀ result ∈ l₁, LF ∉ result.request ∧ LF ∉ result.response)
    (h₂ : ∀ result ∈ l₂, LF ∉ result.request ∧ LF ∉ result.response) :
    (dump l₁ = dump l₂ → l₁ = l₂) ↔
      ¬ (l₁.map Result.response = l₂.map Result.response ∧
        l₁.map Result.request ≠ l₂.map Result.request) := by
  rw [dump_eq_iff (fun result hresult => (h₁ result hresult).2)
    (fun result hresult => (h₂ result hresult).2), eq_iff_map]
  constructor
  · rintro h ⟨hresponse, hrequest⟩
    exact hrequest (h hresponse).1
  · intro h hresponse
    by_contra hne
    exact h ⟨hresponse, fun hrequest => hne ⟨hrequest, hresponse⟩⟩

/-- A list with one result. -/
def recorded (c : Count) (response : String) : List Result := [⟨c.message, ascii response⟩]

/-- Two responses that name their rows. -/
theorem dump_keeps_rows :
    (dump (recorded ⟨7⟩ "Row[7] = 5") = dump (recorded ⟨8⟩ "Row[8] = 5") →
        recorded ⟨7⟩ "Row[7] = 5" = recorded ⟨8⟩ "Row[8] = 5") ∧
      (recorded ⟨7⟩ "Row[7] = 5").map Result.response ≠
        (recorded ⟨8⟩ "Row[8] = 5").map Result.response := by
  have hne : (recorded ⟨7⟩ "Row[7] = 5").map Result.response ≠
      (recorded ⟨8⟩ "Row[8] = 5").map Result.response := by decide
  exact ⟨(dump_keeps_iff _ _ (by decide) (by decide)).2 fun h => hne h.1, hne⟩

/-- The same response to two commands. -/
theorem dump_forgets_request :
    ¬ ∀ l₁ l₂ : List Result,
      (∀ result ∈ l₁, LF ∉ result.request ∧ LF ∉ result.response) →
        (∀ result ∈ l₂, LF ∉ result.request ∧ LF ∉ result.response) →
          dump l₁ = dump l₂ → l₁ = l₂ := by
  intro h
  have heq := h (recorded ⟨7⟩ "Row[-1] = <error>") (recorded ⟨8⟩ "Row[-1] = <error>") (by decide)
    (by decide) rfl
  revert heq
  decide

/-! ## The dump of the in-process program -/

/-- An answer names the row that was asked for. -/
theorem run_eq (t : Target) (file : Bytes) (c : Count) :
    ∃ rest, c.run t file = ascii "Row[" ++ (putInt c.m_rowIndex.toInt ++ 93 :: rest) := by
  have hcount : ascii "] = " = 93 :: ascii " = " := by decide
  have herror : ascii "] = <error>" = 93 :: ascii " = <error>" := by decide
  unfold Count.run
  split
  · rw [hcount]
    simp only [List.append_assoc, List.cons_append]
    exact ⟨_, rfl⟩
  · rw [herror]
    simp only [List.append_assoc]
    exact ⟨_, rfl⟩

theorem run_inj {t : Target} {file : Bytes} {c c' : Count} (h : c.run t file = c'.run t file) :
    c = c' := by
  obtain ⟨rest, hrun⟩ := run_eq t file c
  obtain ⟨rest', hrun'⟩ := run_eq t file c'
  have hbracket (c : Count) : (93 : UInt8) ∉ putInt c.m_rowIndex.toInt :=
    Count.notMem_putInt rfl (by decide) _
  rw [hrun, hrun'] at h
  have hrow := IStream.append_cons_inj (hbracket c) (hbracket c') (List.append_cancel_left h)
  obtain ⟨rowIndex⟩ := c
  obtain ⟨rowIndex'⟩ := c'
  rw [Count.mk.injEq]
  exact IStream.putInt_injective hrow.1

/-- The in-process program records the response of its own command, so its dump does determine the
requests. -/
theorem dump_main_inj (t : Target) (file : Bytes) (g g' : CommandGenerator)
    (h : dump (Inproc.main t file g) = dump (Inproc.main t file g')) :
    Inproc.main t file g = Inproc.main t file g' := by
  have hfree (g : CommandGenerator) :
      ∀ result ∈ Inproc.main t file g, LF ∉ result.response := by
    rw [Inproc.main_eq, List.forall_mem_map]
    intro c _
    exact Count.notMem_run rfl (by decide) (by decide) t file c
  have hmap (g : CommandGenerator) :
      (Inproc.main t file g).map Result.response = g.commands.map (Count.run t file) := by
    rw [Inproc.main_eq, List.map_map]
    rfl
  rw [dump_eq_iff (hfree g) (hfree g'), hmap, hmap] at h
  have hcommands : g.commands = g'.commands := List.map_injective_iff.2 (fun _ _ => run_inj) h
  rw [Inproc.main_eq, Inproc.main_eq, hcommands]

end NitroCloud.Statistic
