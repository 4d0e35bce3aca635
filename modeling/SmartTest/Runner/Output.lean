import Mathlib
import SmartTest.Lib.Utf8
import SmartTest.Runner.Agent

/-!
# Bounded output

`truncate` of `runner/adapters/base.py`, and `_BoundedOutput` and `read_stream` of
`runner/adapters/subprocess.py`: what an adapter keeps of a stream, and what it sends while the
stream is read. The lines are those Python reads from the stream.
-/

open SmartTest.Lib

namespace SmartTest.Runner

/-! ## Truncation -/

/-- What `truncate` can be given. -/
inductive Output where
  | none
  | bytes (raw : List UInt8)
  | text (text : String)

def Output.chars : Output → List Char
  | .none => []
  | .bytes raw => Utf8.decodeReplace raw
  | .text s => s.toList

def MARKER : List Char := "...[truncated]".toList

def truncateChars (text : List Char) (limit : Nat) : List Char :=
  if text.length ≤ limit then text
  else if limit ≤ MARKER.length then MARKER.take limit
  else text.take (limit - MARKER.length) ++ MARKER

def truncate (value : Output) (limit : Nat) : String := .ofList (truncateChars value.chars limit)

theorem length_truncateChars (text : List Char) (limit : Nat) : (truncateChars text limit).length ≤ limit := by
  unfold truncateChars
  split
  · assumption
  · split
    · exact List.length_take_le _ _
    · simp only [List.length_append, List.length_take]
      omega

theorem truncateChars_of_le {text : List Char} {limit : Nat} (h : text.length ≤ limit) :
    truncateChars text limit = text := if_pos h

/-- One character past the limit is all of the rest that counts. -/
theorem truncateChars_take (text : List Char) (limit : Nat) :
    truncateChars (text.take (limit + 1)) limit = truncateChars text limit := by
  by_cases h : text.length ≤ limit
  · rw [List.take_of_length_le (by omega)]
  · have hcut : ¬ (text.take (limit + 1)).length ≤ limit := by
      rw [List.length_take]
      omega
    unfold truncateChars
    rw [if_neg h, if_neg hcut, List.take_take, Nat.min_eq_left (by omega)]

/-! ## Captured output -/

structure BoundedOutput where
  limit : Nat
  parts : List String
  length : Nat

namespace BoundedOutput

def empty (limit : Nat) : BoundedOutput := ⟨limit, [], 0⟩

def append (output : BoundedOutput) (value : String) : BoundedOutput :=
  let remaining := output.limit + 1 - output.length
  if remaining > 0 then
    let saved := value.toList.take remaining
    { output with parts := output.parts ++ [.ofList saved], length := output.length + saved.length }
  else output

def chars (output : BoundedOutput) : List Char := output.parts.flatMap String.toList

def value (output : BoundedOutput) : String := truncate (.text (.ofList output.chars)) output.limit

/-- The output holds the first characters of a text, one more than its limit if there are as many. -/
structure Holds (output : BoundedOutput) (limit : Nat) (text : List Char) : Prop where
  bound : output.limit = limit
  kept : output.chars = text.take (limit + 1)
  counted : output.length = output.chars.length

variable {output : BoundedOutput} {limit : Nat} {text : List Char}

theorem holds_empty (limit : Nat) : Holds (empty limit) limit [] := ⟨rfl, rfl, rfl⟩

theorem Holds.append (h : Holds output limit text) (line : String) :
    Holds (output.append line) limit (text ++ line.toList) := by
  have hlength : output.length = min (limit + 1) text.length := by rw [h.counted, h.kept, List.length_take]
  unfold BoundedOutput.append
  simp only
  split
  · next hroom =>
    rw [h.bound] at hroom ⊢
    have hchars : (output.parts ++ [String.ofList (line.toList.take (limit + 1 - output.length))]).flatMap String.toList =
        (text ++ line.toList).take (limit + 1) := by
      have hall : text.take (limit + 1) = text := List.take_of_length_le (by omega)
      have hcount : output.length = text.length := by omega
      rw [List.flatMap_append, ← BoundedOutput.chars, h.kept, hall, List.take_append, hall, hcount]
      simp
    refine ⟨rfl, hchars, ?_⟩
    change output.length + (line.toList.take (limit + 1 - output.length)).length = _
    rw [BoundedOutput.chars, hchars, List.length_take, List.length_take, List.length_append]
    omega
  · next hroom =>
    rw [h.bound] at hroom
    exact ⟨h.bound, by rw [h.kept, List.take_append_of_le_length (by omega)], h.counted⟩

theorem Holds.value_eq (h : Holds output limit text) : output.value = truncate (.text (.ofList text)) limit := by
  rw [BoundedOutput.value, truncate, truncate, Output.chars, Output.chars, String.toList_ofList, String.toList_ofList,
    h.bound, h.kept, truncateChars_take]

theorem holds_foldl (lines : List String) (h : Holds output limit text) :
    Holds (lines.foldl BoundedOutput.append output) limit (text ++ lines.flatMap String.toList) := by
  induction lines generalizing output text with
  | nil => simpa using h
  | cons line rest ih =>
    have := ih (h.append line)
    rwa [List.append_assoc] at this

end BoundedOutput

/-! ## Reading a stream -/

/-- A call of the sink. -/
inductive Sent where
  | text (message : String)
  | notice
  deriving DecidableEq

def Sent.message : Sent → String
  | .text message => message
  | .notice => .ofList MARKER

/-- The local variables of `read_stream`, the calls the sink has taken and how many have raised. -/
structure StreamReader where
  emitted : Nat
  truncatedEventEmitted : Bool
  sinkEnabled : Bool
  captured : BoundedOutput
  sent : List Sent
  errors : Nat

namespace StreamReader

/-- Whether the sink raises, after the calls it has taken. -/
abbrev Sink := List Sent → Bool

def start (outputLimit : Nat) : StreamReader := ⟨0, false, true, .empty outputLimit, [], 0⟩

variable (raises : Sink)

def saveReaderError (r : StreamReader) : StreamReader := { r with sinkEnabled := false, errors := r.errors + 1 }

def emitChunks : List String → StreamReader → StreamReader
  | [], r => r
  | chunk :: rest, r =>
    if raises r.sent then r.saveReaderError
    else emitChunks rest { r with sent := r.sent ++ [.text chunk] }

def emitNotice (r : StreamReader) : StreamReader :=
  if raises r.sent then r.saveReaderError else { r with sent := r.sent ++ [.notice] }

/-- The body of the loop. -/
def readLine (outputLimit : Nat) (r : StreamReader) (line : String) : StreamReader :=
  let r := { r with captured := r.captured.append line }
  let remaining := outputLimit - r.emitted
  let visible := (rstripNewline line).take remaining
  let r := if visible ≠ [] ∧ r.sinkEnabled = true then emitChunks raises (chunks visible) r else r
  let r := { r with emitted := r.emitted + min line.length remaining }
  if line.length > remaining ∧ r.truncatedEventEmitted = false then
    let r := if r.sinkEnabled then emitNotice raises r else r
    { r with truncatedEventEmitted := true }
  else r

def run (outputLimit : Nat) (lines : List String) : StreamReader :=
  lines.foldl (readLine raises outputLimit) (start outputLimit)

end StreamReader

/-- The texts among the calls, without the notices. -/
def texts (sent : List Sent) : List String := sent.filterMap fun
  | .text message => some message
  | .notice => none

/-! ## Chunks -/

theorem flatten_pieces (text : List Char) (size count : Nat) :
    ((List.range count).map fun k => (text.drop (k * size)).take size).flatten = text.take (count * size) := by
  induction count with
  | zero => simp
  | succ count ih =>
    rw [List.range_succ, List.map_append, List.flatten_append, ih, Nat.succ_mul, List.take_add]
    simp

theorem chunks_flatMap (text : List Char) : (chunks text).flatMap String.toList = text := by
  have hpieces := flatten_pieces text LOG_CHUNK_SIZE ((text.length + LOG_CHUNK_SIZE - 1) / LOG_CHUNK_SIZE)
  have hall : text.length ≤ (text.length + LOG_CHUNK_SIZE - 1) / LOG_CHUNK_SIZE * LOG_CHUNK_SIZE := by
    unfold LOG_CHUNK_SIZE
    omega
  rw [List.take_of_length_le hall] at hpieces
  unfold chunks
  rw [List.flatMap_map]
  simpa [List.flatMap_def, Function.comp_def] using hpieces

theorem length_of_mem_chunks {text : List Char} {chunk : String} (h : chunk ∈ chunks text) :
    chunk.length ≤ LOG_CHUNK_SIZE := by
  obtain ⟨k, -, rfl⟩ := List.mem_map.mp h
  rw [String.length_ofList]
  exact List.length_take_le _ _

theorem chunks_nil : chunks [] = [] := by decide

/-! ## A sink that does not fail -/

namespace StreamReader

def silent : Sink := fun _ => false

/-- The text of the lines, with their line ends. -/
def total (lines : List String) : List Char := lines.flatMap String.toList

theorem total_append (before : List String) (line : String) : total (before ++ [line]) = total before ++ line.toList := by
  simp [total]

theorem emitChunks_silent (l : List String) (r : StreamReader) :
    emitChunks silent l r = { r with sent := r.sent ++ l.map .text } := by
  induction l generalizing r with
  | nil => simp [emitChunks]
  | cons chunk rest ih =>
    rw [emitChunks, if_neg (by simp [silent]), ih]
    simp

/-- What a line sends, after lines of `used` characters. -/
def lineSent (outputLimit used : Nat) (line : String) : List Sent :=
  (chunks ((rstripNewline line).take (outputLimit - used))).map .text ++
    (if used ≤ outputLimit ∧ outputLimit < used + line.length then [.notice] else [])

/-- Where the reader is after lines that hold the text. -/
structure After (outputLimit : Nat) (text : List Char) (r : StreamReader) : Prop where
  emitted : r.emitted = min outputLimit text.length
  truncated : r.truncatedEventEmitted = decide (outputLimit < text.length)
  enabled : r.sinkEnabled = true
  captured : r.captured.Holds outputLimit text

variable {outputLimit : Nat} {text : List Char} {r : StreamReader}

theorem after_start (outputLimit : Nat) : After outputLimit [] (start outputLimit) :=
  ⟨by simp [start], by simp [start], rfl, BoundedOutput.holds_empty outputLimit⟩

theorem readLine_eq (h : r.sinkEnabled = true) (line : String) :
    readLine silent outputLimit r line =
      { emitted := r.emitted + min line.length (outputLimit - r.emitted)
        truncatedEventEmitted := r.truncatedEventEmitted || decide (line.length > outputLimit - r.emitted)
        sinkEnabled := true
        captured := r.captured.append line
        sent := r.sent ++ (chunks ((rstripNewline line).take (outputLimit - r.emitted))).map .text ++
          (if line.length > outputLimit - r.emitted ∧ r.truncatedEventEmitted = false then [.notice] else [])
        errors := r.errors } := by
  obtain ⟨emitted, cut, enabled, captured, sent, errors⟩ := r
  obtain rfl : enabled = true := h
  unfold readLine
  -- The branch that sends no chunk sends the chunks of nothing.
  by_cases hvisible : (rstripNewline line).take (outputLimit - emitted) = []
  · by_cases hlong : line.length > outputLimit - emitted
    · cases cut <;> simp [hvisible, hlong, chunks_nil, emitNotice, silent]
    · simp [hvisible, hlong, chunks_nil]
  · by_cases hlong : line.length > outputLimit - emitted
    · cases cut <;> simp [hvisible, hlong, emitChunks_silent, emitNotice, silent]
    · simp [hvisible, hlong, emitChunks_silent]

theorem readLine_silent (h : After outputLimit text r) (line : String) :
    After outputLimit (text ++ line.toList) (readLine silent outputLimit r line) ∧
      (readLine silent outputLimit r line).sent = r.sent ++ lineSent outputLimit text.length line := by
  have hremaining : outputLimit - r.emitted = outputLimit - text.length := by
    rw [h.emitted]
    omega
  have hlength : line.toList.length = line.length := String.length_toList
  rw [readLine_eq h.enabled, hremaining, h.truncated]
  refine ⟨⟨?_, ?_, rfl, h.captured.append line⟩, ?_⟩
  · simp only [h.emitted, List.length_append, hlength]
    omega
  · rw [← Bool.decide_or]
    simp only [List.length_append, hlength]
    exact decide_eq_decide.mpr (by omega)
  · simp only [lineSent, List.append_assoc, decide_eq_false_iff_not]
    congr 2
    exact if_congr (by omega) rfl rfl

theorem run_append (raises : Sink) (outputLimit : Nat) (before : List String) (line : String) :
    run raises outputLimit (before ++ [line]) = readLine raises outputLimit (run raises outputLimit before) line := by
  simp [run]

theorem after_run (outputLimit : Nat) (lines : List String) :
    After outputLimit (total lines) (run silent outputLimit lines) := by
  induction lines using List.reverseRecOn with
  | nil => exact after_start outputLimit
  | append_singleton before line ih =>
    rw [run_append, total_append]
    exact (readLine_silent ih line).1

/-! ## All lines -/

theorem texts_append (a b : List Sent) : texts (a ++ b) = texts a ++ texts b := List.filterMap_append

theorem texts_map (l : List String) : texts (l.map .text) = l := by
  simp [texts, List.filterMap_map]

theorem texts_lineSent (outputLimit used : Nat) (line : String) :
    texts (lineSent outputLimit used line) = chunks ((rstripNewline line).take (outputLimit - used)) := by
  rw [lineSent, texts_append, texts_map]
  split <;> simp [texts]

theorem count_lineSent (outputLimit used : Nat) (line : String) :
    (lineSent outputLimit used line).count .notice =
      if used ≤ outputLimit ∧ outputLimit < used + line.length then 1 else 0 := by
  have hchunks : ∀ l : List String, (l.map Sent.text).count .notice = 0 := by
    intro l
    rw [List.count_eq_zero]
    simp
  rw [lineSent, List.count_append, hchunks]
  split <;> simp

theorem length_rstripNewline (line : String) : (rstripNewline line).length ≤ line.length := by
  unfold rstripNewline
  rw [List.length_reverse]
  calc (line.toList.reverse.dropWhile _).length
      ≤ line.toList.reverse.length := (List.dropWhile_sublist _).length_le
    _ = line.length := by rw [List.length_reverse, String.length_toList]

theorem run_sent (outputLimit : Nat) (before : List String) (line : String) :
    (run silent outputLimit (before ++ [line])).sent =
      (run silent outputLimit before).sent ++ lineSent outputLimit (before.flatMap String.toList).length line := by
  rw [run_append]
  exact (readLine_silent (after_run outputLimit before) line).2

/-- What is sent fits the part of the limit that the lines have used. -/
theorem length_texts (outputLimit : Nat) (lines : List String) :
    ((texts (run silent outputLimit lines).sent).flatMap String.toList).length ≤
      min outputLimit (lines.flatMap String.toList).length := by
  induction lines using List.reverseRecOn with
  | nil => simp [run, start, texts]
  | append_singleton before line ih =>
    have hline := length_rstripNewline line
    have hlength : line.toList.length = line.length := String.length_toList
    rw [run_sent, texts_append, texts_lineSent, List.flatMap_append, chunks_flatMap, List.length_append,
      List.length_take, List.flatMap_append, List.length_append]
    simp only [List.flatMap_cons, List.flatMap_nil, List.append_nil, hlength]
    omega

theorem count_notice (outputLimit : Nat) (lines : List String) :
    (run silent outputLimit lines).sent.count .notice =
      if outputLimit < (lines.flatMap String.toList).length then 1 else 0 := by
  induction lines using List.reverseRecOn with
  | nil => simp [run, start]
  | append_singleton before line ih =>
    have hlength : line.toList.length = line.length := String.length_toList
    rw [run_sent, List.count_append, ih, count_lineSent, List.flatMap_append, List.length_append]
    simp only [List.flatMap_cons, List.flatMap_nil, List.append_nil, hlength]
    split_ifs <;> omega

theorem mem_texts (outputLimit : Nat) (lines : List String) :
    ∀ chunk ∈ texts (run silent outputLimit lines).sent, chunk.length ≤ LOG_CHUNK_SIZE := by
  induction lines using List.reverseRecOn with
  | nil => simp [run, start, texts]
  | append_singleton before line ih =>
    intro chunk hchunk
    rw [run_sent, texts_append, texts_lineSent, List.mem_append] at hchunk
    rcases hchunk with h | h
    · exact ih chunk h
    · exact length_of_mem_chunks h

/-- The calls are the ones the agent's reader threads make. -/
theorem run_eq_readStream (outputLimit : Nat) (lines : List String) :
    (run silent outputLimit lines).sent.map Sent.message = readStream outputLimit 0 false lines := by
  have hrun : ∀ (lines : List String) (r : StreamReader), r.sinkEnabled = true →
      (lines.foldl (readLine silent outputLimit) r).sent.map Sent.message =
        r.sent.map Sent.message ++ readStream outputLimit r.emitted r.truncatedEventEmitted lines := by
    intro lines
    induction lines with
    | nil => simp [readStream]
    | cons line rest ih =>
      intro r henabled
      have hmessages : ∀ l : List String, (l.map Sent.text).map Sent.message = l := by
        intro l
        simp [Sent.message, Function.comp_def]
      rw [List.foldl_cons, readLine_eq henabled, ih _ rfl, readStream]
      simp only [List.map_append, hmessages, List.append_assoc, Bool.and_eq_true, Bool.not_eq_true', decide_eq_true_eq]
      congr 2
      split <;> rfl
  exact hrun lines (start outputLimit) rfl

end StreamReader

/-- What is kept of a stream is its text, truncated. What is sent of it is its lines up to the limit, and one
notice when there is more. -/
theorem streamed_output_bounded (outputLimit : Nat) (lines : List String) :
    let total := lines.flatMap String.toList
    let reader := StreamReader.run StreamReader.silent outputLimit lines
    (lines.foldl BoundedOutput.append (.empty outputLimit)).value = truncate (.text (.ofList total)) outputLimit ∧
    reader.captured.value = truncate (.text (.ofList total)) outputLimit ∧
    (∀ value, truncate (.text (truncate value outputLimit)) outputLimit = truncate value outputLimit ∧
      (truncate value outputLimit).length ≤ outputLimit) ∧
    ((texts reader.sent).flatMap String.toList).length ≤ outputLimit ∧
    (∀ chunk ∈ texts reader.sent, chunk.length ≤ 4096) ∧
    (∀ before line, ∃ new,
      (StreamReader.run StreamReader.silent outputLimit (before ++ [line])).sent =
        (StreamReader.run StreamReader.silent outputLimit before).sent ++ new ∧
      (texts new).flatMap String.toList =
        (rstripNewline line).take (outputLimit - (before.flatMap String.toList).length)) ∧
    reader.sent.count .notice = if outputLimit < total.length then 1 else 0 := by
  have hlength := StreamReader.length_texts outputLimit lines
  refine ⟨?_, (StreamReader.after_run outputLimit lines).captured.value_eq, ?_, by omega,
    StreamReader.mem_texts outputLimit lines, ?_, StreamReader.count_notice outputLimit lines⟩
  · have := BoundedOutput.holds_foldl lines (BoundedOutput.holds_empty outputLimit)
    rw [List.nil_append] at this
    exact this.value_eq
  · intro value
    have hbound := length_truncateChars value.chars outputLimit
    refine ⟨?_, by rw [truncate, String.length_ofList]; exact hbound⟩
    rw [truncate, truncate, Output.chars, String.toList_ofList, truncateChars_of_le hbound]
  · intro before line
    exact ⟨_, StreamReader.run_sent outputLimit before line,
      by rw [StreamReader.texts_lineSent, chunks_flatMap]⟩

end SmartTest.Runner
