/-
  What the cutting of a stream into chunks changes on a `Policy` and on an
  `SRS` channel.

  `asynchat` joins the pieces of a line in its own `_collect_incoming_data` and
  `_get_data`; the channels keep them in a list and pop the last one.  A
  connection therefore behaves as if the whole stream had arrived at once
  exactly when no line, up to the first that raises, was cut
  (`fragmentation_iff`); `policy_cut_line` is a cut line.
-/
import IRedAPD.Equiv.Channel.Session

namespace IRedAPD

open Py Framing

variable [Unicode] {ω : Type*}

/-- A `Policy` connection that reads these chunks processes the lines, hands over the sessions and
pushes the replies of one that reads the stream at once. -/
def PolicyFragmentationIndependent (settings : Settings)
    (handleData : Session → ω → Except Exn Str × ω) (w : ω) (chunks : List Bytes) : Prop :=
  let cut := connection (policyHandler settings handleData) ⟨[], w⟩ chunks
  let whole := connection (policyHandler settings handleData) ⟨[], w⟩ [chunks.flatten]
  processed cut = processed whole ∧ handed (effects cut) = handed (effects whole) ∧
    pushed (effects cut) = pushed (effects whole)

/-- The same of an `SRS` connection, which only pushes. -/
def SrsFragmentationIndependent (settings : Settings) (calls : SrsCalls ω)
    (rewrite : RewriteAddressType) (w : ω) (chunks : List Bytes) : Prop :=
  let cut := connection (srsHandler settings calls rewrite) w chunks
  let whole := connection (srsHandler settings calls rewrite) w [chunks.flatten]
  processed cut = processed whole ∧ effects cut = effects whole

omit [Unicode] in
/-- A line on which an `SRS` channel raises. -/
def SrsRaises (_before : List Bytes) (line : Bytes) : Prop := decode line = none

theorem srs_raised_iff (settings : Settings) (calls : SrsCalls ω) (rewrite : RewriteAddressType)
    (before : List Bytes) (w : ω) (line : Bytes) :
    (handleLine (srsHandler settings calls rewrite) w line).raised = true ↔
      SrsRaises before line := by
  simp only [handleLine, announce, srsHandler, SrsRaises]
  by_cases hl : line = []
  · simp [hl, Outcome.pure]
  · rw [if_neg hl]
    cases hdec : decode line <;> simp

theorem srs_run_raised_iff (settings : Settings) (calls : SrsCalls ω) (rewrite : RewriteAddressType)
    (w : ω) (lines : List Bytes) :
    (Outcome.run (handleLine (srsHandler settings calls rewrite)) w lines).raised = false ↔
      NoneRaises SrsRaises lines :=
  run_raised_iff (srsHandler settings calls rewrite) (R := fun _ _ => True)
    (fun before w line _ => srs_raised_iff settings calls rewrite before w line)
    (fun _ _ _ _ => trivial) [] w trivial lines

/-- **Fragmentation.** On either channel, reading a stream in chunks is reading it at once exactly
when every line, up to the first that raises, has its octets from one chunk. -/
theorem fragmentation_iff (settings : Settings) :
    (∀ (handleData : Session → ω → Except Exn Str × ω) (w : ω) (chunks : List Bytes),
      [] ∉ chunks →
        (PolicyFragmentationIndependent settings handleData w chunks ↔
          UncutLines PolicyRaises (cutLines 10 [] chunks).1)) ∧
    (∀ (calls : SrsCalls ω) (rewrite : RewriteAddressType) (w : ω) (chunks : List Bytes),
      [] ∉ chunks →
        (SrsFragmentationIndependent settings calls rewrite w chunks ↔
          UncutLines SrsRaises (cutLines 10 [] chunks).1)) := by
  constructor
  · intro handleData w chunks hne
    obtain ⟨hiff, hall⟩ := connection_fragmentation (policyHandler settings handleData)
      (policy_run_raised_iff settings handleData w) hne
    constructor
    · rintro ⟨hlines, -, -⟩
      exact hiff.mp hlines
    · intro huncut
      have heq := hall huncut
      simp only [PolicyFragmentationIndependent, heq, and_self]
  · intro calls rewrite w chunks hne
    obtain ⟨hiff, hall⟩ := connection_fragmentation (srsHandler settings calls rewrite)
      (srs_run_raised_iff settings calls rewrite w) hne
    constructor
    · rintro ⟨hlines, -⟩
      exact hiff.mp hlines
    · intro huncut
      have heq := hall huncut
      simp only [SrsFragmentationIndependent, heq, and_self]

omit [Unicode] in
/-- A request read in two chunks, cut between its lines. -/
theorem fragmentation_iff_between_lines :
    letI := asciiUnicode
    [] ∉ [asciiBytes "queue_id=ABC\n", asciiBytes "\n"] ∧
      (PolicyFragmentationIndependent {} (fun _ w => (.ok "DUNNO".toList, w)) ()
          [asciiBytes "queue_id=ABC\n", asciiBytes "\n"] ↔
        UncutLines PolicyRaises
          (cutLines 10 [] [asciiBytes "queue_id=ABC\n", asciiBytes "\n"]).1) :=
  let := asciiUnicode
  ⟨by decide, (fragmentation_iff {}).1 _ () _ (by decide)⟩

omit [Unicode] in
/-- A line cut in two: `C` is processed instead of `queue_id=ABC`. -/
theorem policy_cut_line :
    letI := asciiUnicode
    ¬ PolicyFragmentationIndependent {} (fun _ w => (.ok "DUNNO".toList, w)) ()
        [asciiBytes "queue_id=AB", asciiBytes "C\n"] := by
  rintro ⟨hlines, -, -⟩
  revert hlines
  decide

end IRedAPD
