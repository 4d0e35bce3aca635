import SmartTest.Runner.Output

/-!
# A sink that raises

`read_stream` goes on when its sink raises: it captures the rest of the stream and sends nothing
more. What it has sent then are the calls it would have made to a sink that never raises, up to
the first one that was refused.
-/

open SmartTest.Lib

namespace SmartTest.Runner

namespace StreamReader

variable {raises : Sink} {outputLimit : Nat} {calls : List Sent} {r s : StreamReader}

/-- The reader has made these calls up to the first one that the sink refused. -/
structure Follows (raises : Sink) (calls : List Sent) (r : StreamReader) : Prop where
  taken : r.sent <+: calls
  accepted : ∀ k < r.sent.length, raises (calls.take k) = false
  enabled : r.sinkEnabled = true → r.sent = calls ∧ r.errors = 0
  refused : r.sinkEnabled = false → r.sent.length < calls.length ∧ raises r.sent = true ∧ r.errors = 1

theorem follows_start (raises : Sink) (outputLimit : Nat) : Follows raises [] (start outputLimit) := by
  constructor
  · simp [start]
  · simp [start]
  · simp [start]
  · simp [start]

/-- Once the sink has raised, nothing that comes is sent. -/
theorem Follows.skip (h : Follows raises calls r) (hdisabled : r.sinkEnabled = false) (more : List Sent) :
    Follows raises (calls ++ more) r := by
  obtain ⟨hlength, hraises, herrors⟩ := h.refused hdisabled
  constructor
  · exact h.taken.trans (List.prefix_append _ _)
  · intro k hk
    rw [List.take_append_of_le_length (by omega)]
    exact h.accepted k hk
  · simp [hdisabled]
  · intro _
    rw [List.length_append]
    exact ⟨by omega, hraises, herrors⟩

/-- The next call is refused. -/
theorem Follows.refuse (h : Follows raises calls r) (henabled : r.sinkEnabled = true) (hraises : raises r.sent = true)
    (call : Sent) (rest : List Sent) : Follows raises (calls ++ call :: rest) r.saveReaderError := by
  obtain ⟨hsent, herrors⟩ := h.enabled henabled
  unfold saveReaderError
  constructor
  · exact h.taken.trans (List.prefix_append _ _)
  · intro k hk
    rw [List.take_append_of_le_length (by rw [← hsent]; exact hk.le)]
    exact h.accepted k hk
  · simp
  · intro _
    simp only [hsent, herrors, List.length_append, List.length_cons]
    exact ⟨by omega, by rw [← hsent]; exact hraises, trivial⟩

/-- The next call is taken. -/
theorem Follows.take (h : Follows raises calls r) (henabled : r.sinkEnabled = true) (hraises : raises r.sent = false)
    (call : Sent) : Follows raises (calls ++ [call]) { r with sent := r.sent ++ [call] } := by
  obtain ⟨hsent, herrors⟩ := h.enabled henabled
  constructor
  · simp [hsent]
  · intro k hk
    rw [List.length_append, List.length_singleton] at hk
    rw [List.take_append_of_le_length (by rw [← hsent]; omega)]
    by_cases hlast : k = r.sent.length
    · rw [hlast, hsent, List.take_length, ← hsent]
      exact hraises
    · exact h.accepted k (by omega)
  · simp [hsent, herrors]
  · simp [henabled]

theorem Follows.emitChunks (h : Follows raises calls r) (henabled : r.sinkEnabled = true) (l : List String) :
    Follows raises (calls ++ l.map .text) (emitChunks raises l r) := by
  induction l generalizing calls r with
  | nil => simpa [StreamReader.emitChunks] using h
  | cons chunk rest ih =>
    unfold StreamReader.emitChunks
    split
    · next hraises => exact h.refuse henabled hraises _ _
    · next hraises =>
      have htaken := h.take henabled (by simpa using hraises) (.text chunk)
      simpa using ih htaken henabled

theorem Follows.emitNotice (h : Follows raises calls r) (henabled : r.sinkEnabled = true) :
    Follows raises (calls ++ [.notice]) (emitNotice raises r) := by
  unfold StreamReader.emitNotice
  split
  · next hraises => exact h.refuse henabled hraises _ _
  · next hraises => exact h.take henabled (by simpa using hraises) _

/-- The reader that the calls leave, but for the sink. -/
def SameText (s r : StreamReader) : Prop :=
  r.emitted = s.emitted ∧ r.truncatedEventEmitted = s.truncatedEventEmitted ∧ r.captured = s.captured

theorem emitChunks_sameText (l : List String) (r : StreamReader) : SameText r (emitChunks raises l r) := by
  induction l generalizing r with
  | nil => exact ⟨rfl, rfl, rfl⟩
  | cons chunk rest ih =>
    unfold emitChunks
    split
    · exact ⟨rfl, rfl, rfl⟩
    · exact ih _

theorem notice_sameText (raises : Sink) (r : StreamReader) :
    SameText r (if r.sinkEnabled then emitNotice raises r else r) := by
  unfold emitNotice
  split
  · split <;> exact ⟨rfl, rfl, rfl⟩
  · exact ⟨rfl, rfl, rfl⟩

/-- The counters, the capture and the flags do not matter to what was sent. -/
theorem Follows.congr (h : Follows raises calls r) (hsent : s.sent = r.sent) (henabled : s.sinkEnabled = r.sinkEnabled)
    (herrors : s.errors = r.errors) : Follows raises calls s := by
  constructor
  · rw [hsent]
    exact h.taken
  · rw [hsent]
    exact h.accepted
  · rw [hsent, henabled, herrors]
    exact h.enabled
  · rw [hsent, henabled, herrors]
    exact h.refused

/-! ## One line -/

/-- The calls for the visible part of a line. -/
theorem Follows.visible (h : Follows raises calls r) (visible : List Char) :
    Follows raises (calls ++ (chunks visible).map .text)
      (if visible ≠ [] ∧ r.sinkEnabled = true then StreamReader.emitChunks raises (chunks visible) r else r) := by
  split
  · next hcase => exact h.emitChunks hcase.2 _
  · next hcase =>
    cases henabled : r.sinkEnabled with
    | false => exact h.skip henabled _
    | true =>
      have hempty : visible = [] := by
        by_contra hne
        exact hcase ⟨hne, henabled⟩
      simpa [hempty, chunks_nil] using h

/-- The call for the first line that does not fit. -/
theorem Follows.notice (h : Follows raises calls r) :
    Follows raises (calls ++ [.notice]) (if r.sinkEnabled then StreamReader.emitNotice raises r else r) := by
  split
  · next henabled => exact h.emitNotice henabled
  · next henabled => exact h.skip (by simpa using henabled) _

theorem readLine_follows (h : Follows raises s.sent r) (htext : SameText s r) (henabled : s.sinkEnabled = true)
    (line : String) :
    Follows raises (readLine silent outputLimit s line).sent (readLine raises outputLimit r line) ∧
      SameText (readLine silent outputLimit s line) (readLine raises outputLimit r line) := by
  obtain ⟨emitted, cut, enabled, captured, sent, errors⟩ := r
  obtain ⟨rfl, rfl, rfl⟩ : emitted = s.emitted ∧ cut = s.truncatedEventEmitted ∧ captured = s.captured := htext
  have hvisible := (h.congr (s := ⟨s.emitted, s.truncatedEventEmitted, enabled, s.captured.append line, sent, errors⟩)
    rfl rfl rfl).visible ((rstripNewline line).take (outputLimit - s.emitted))
  have hframe : SameText ⟨s.emitted, s.truncatedEventEmitted, enabled, s.captured.append line, sent, errors⟩
      (if (rstripNewline line).take (outputLimit - s.emitted) ≠ [] ∧ enabled = true then
        emitChunks raises (chunks ((rstripNewline line).take (outputLimit - s.emitted)))
          ⟨s.emitted, s.truncatedEventEmitted, enabled, s.captured.append line, sent, errors⟩
      else ⟨s.emitted, s.truncatedEventEmitted, enabled, s.captured.append line, sent, errors⟩) := by
    split
    · exact emitChunks_sameText _ _
    · exact ⟨rfl, rfl, rfl⟩
  rw [readLine_eq henabled]
  unfold readLine
  simp only at hvisible hframe ⊢
  generalize (if (rstripNewline line).take (outputLimit - s.emitted) ≠ [] ∧ enabled = true then
      emitChunks raises (chunks ((rstripNewline line).take (outputLimit - s.emitted)))
        ⟨s.emitted, s.truncatedEventEmitted, enabled, s.captured.append line, sent, errors⟩
    else ⟨s.emitted, s.truncatedEventEmitted, enabled, s.captured.append line, sent, errors⟩) = seen at hvisible hframe ⊢
  obtain ⟨hemitted, hcut, hcaptured⟩ := hframe
  simp only at hemitted hcut hcaptured
  rw [hemitted, hcut]
  have hcounted := hvisible.congr (s := ⟨s.emitted + min line.length (outputLimit - s.emitted),
    s.truncatedEventEmitted, seen.sinkEnabled, seen.captured, seen.sent, seen.errors⟩) rfl rfl rfl
  by_cases hlong : line.length > outputLimit - s.emitted ∧ s.truncatedEventEmitted = false
  · rw [if_pos hlong, if_pos hlong]
    have hnotice := hcounted.notice
    have hsame := notice_sameText raises ⟨s.emitted + min line.length (outputLimit - s.emitted),
      s.truncatedEventEmitted, seen.sinkEnabled, seen.captured, seen.sent, seen.errors⟩
    refine ⟨hnotice.congr rfl rfl rfl, hsame.1, ?_, hsame.2.2.trans hcaptured⟩
    simp [hlong.1]
  · rw [if_neg hlong, if_neg hlong, List.append_nil]
    refine ⟨hcounted, rfl, ?_, hcaptured⟩
    by_cases hcutBefore : s.truncatedEventEmitted = true
    · simp [hcutBefore]
    · simp only [Bool.not_eq_true] at hcutBefore
      simpa [hcutBefore] using hlong

/-! ## The whole stream -/

/-- Whatever the sink does, the reader counts and captures as if it never raised, and it has made the calls it would
have made to a sink that never raises, up to the first one that was refused. -/
theorem failing_sink_contained (raises : Sink) (outputLimit : Nat) (lines : List String) :
    SameText (run silent outputLimit lines) (run raises outputLimit lines) ∧
    Follows raises (run silent outputLimit lines).sent (run raises outputLimit lines) := by
  induction lines using List.reverseRecOn with
  | nil => exact ⟨⟨rfl, rfl, rfl⟩, follows_start raises outputLimit⟩
  | append_singleton before line ih =>
    rw [run_append, run_append]
    exact (readLine_follows ih.2 ih.1 (after_run outputLimit before).enabled line).symm

end StreamReader

end SmartTest.Runner
