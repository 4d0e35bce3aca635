import SmartTest.Lib.JsonLines

/-!
# Server-sent events

A stream of lines: fields fill the buffers, an empty line dispatches what they hold, and a line
that starts with a colon is a comment.
-/

namespace SmartTest.Lib

/-- A message as a listener gets it. -/
structure Message where
  lastEventId : List Char
  type : List Char
  data : List Char

namespace EventSource

structure Buffers where
  data : List Char
  type : List Char
  id : List Char

/-- One blank after the colon belongs to the field. -/
def fieldValue : List Char → List Char
  | ' ' :: rest => rest
  | value => value

def setField (b : Buffers) (field value : List Char) : Buffers :=
  if field = ['e', 'v', 'e', 'n', 't'] then { b with type := value }
  else if field = ['d', 'a', 't', 'a'] then { b with data := b.data ++ value ++ ['\n'] }
  else if field = ['i', 'd'] then if '\x00' ∈ value then b else { b with id := value }
  else b

/-- The messages of the lines that follow. -/
def dispatch (b : Buffers) : List (List Char) → List Message
  | [] => []
  | [] :: rest =>
    let type := if b.type = [] then ['m', 'e', 's', 's', 'a', 'g', 'e'] else b.type
    if b.data = [] then dispatch ⟨[], [], b.id⟩ rest
    else ⟨b.id, type, b.data.dropLast⟩ :: dispatch ⟨[], [], b.id⟩ rest
  | (':' :: _) :: rest => dispatch b rest
  | line :: rest =>
    dispatch (setField b (line.takeWhile (· ≠ ':')) (fieldValue ((line.dropWhile (· ≠ ':')).drop 1))) rest

def messages (text : List Char) : List Message := dispatch ⟨[], [], []⟩ (splitLines (universalNewlines text))

/-- The messages of a text, with the last one also where no empty line ends it. -/
def allMessages (text : List Char) : List Message :=
  dispatch ⟨[], [], []⟩ (splitLines (universalNewlines text) ++ [[]])

/-- The four lines of an event. -/
def frame (id type data : List Char) : List (List Char) :=
  ['i' :: 'd' :: ':' :: ' ' :: id, 'e' :: 'v' :: 'e' :: 'n' :: 't' :: ':' :: ' ' :: type,
    'd' :: 'a' :: 't' :: 'a' :: ':' :: ' ' :: data, []]

/-- An event is dispatched as it was framed. -/
theorem dispatch_frame {id type data lastId : List Char} (hid : '\x00' ∉ id) (htype : type ≠ [])
    (rest : List (List Char)) :
    dispatch ⟨[], [], lastId⟩ (frame id type data ++ rest) = ⟨id, type, data⟩ :: dispatch ⟨[], [], id⟩ rest := by
  simp [frame, dispatch, setField, fieldValue, hid, htype]

/-- A comment on a line of its own dispatches nothing. -/
theorem dispatch_comment (lastId text : List Char) (rest : List (List Char)) :
    dispatch ⟨[], [], lastId⟩ ((':' :: text) :: [] :: rest) = dispatch ⟨[], [], lastId⟩ rest := by
  simp [dispatch]

/-! ## The data of the messages -/

/-- What a line adds to the data of its event. -/
def dataOf : List Char → Option (List Char)
  | [] => none
  | ':' :: _ => none
  | line =>
    if line.takeWhile (· ≠ ':') = ['d', 'a', 't', 'a'] then
      some (fieldValue ((line.dropWhile (· ≠ ':')).drop 1))
    else none

/-- The data lines of every event that has any, when those of the first event so far are `values`. -/
def dataBlocks (values : List (List Char)) : List (List Char) → List (List (List Char))
  | [] => if values = [] then [] else [values]
  | [] :: rest => if values = [] then dataBlocks [] rest else values :: dataBlocks [] rest
  | line :: rest => dataBlocks (values ++ (dataOf line).toList) rest

theorem setField_data (b : Buffers) (line : List Char) (hline : line ≠ []) (hcomment : line.head? ≠ some ':') :
    (setField b (line.takeWhile (· ≠ ':')) (fieldValue ((line.dropWhile (· ≠ ':')).drop 1))).data =
      b.data ++ ((dataOf line).toList.flatMap (· ++ ['\n'])) := by
  have hdata : dataOf line = if line.takeWhile (· ≠ ':') = ['d', 'a', 't', 'a'] then
      some (fieldValue ((line.dropWhile (· ≠ ':')).drop 1)) else none := by
    unfold dataOf
    split
    · exact absurd rfl hline
    · exact absurd rfl hcomment
    · rfl
  rw [hdata]
  generalize line.takeWhile (· ≠ ':') = field
  generalize fieldValue ((line.dropWhile (· ≠ ':')).drop 1) = value
  unfold setField
  by_cases hevent : field = ['e', 'v', 'e', 'n', 't']
  · simp [hevent]
  · by_cases hfield : field = ['d', 'a', 't', 'a']
    · simp [hfield]
    · rw [if_neg hevent, if_neg hfield, if_neg hfield]
      split
      · split <;> simp
      · simp

theorem flatMap_terminated_eq_nil {values : List (List Char)} :
    values.flatMap (· ++ ['\n']) = [] ↔ values = [] := by
  cases values <;> simp

/-- Lines with a break after each, but the last. -/
theorem dropLast_flatMap_terminated {values : List (List Char)} (h : values ≠ []) :
    (values.flatMap (· ++ ['\n'])).dropLast = ['\n'].intercalate values := by
  induction values with
  | nil => exact absurd rfl h
  | cons value rest ih =>
    cases rest with
    | nil => simp [List.intercalate_singleton]
    | cons next more =>
      rw [List.flatMap_cons, List.dropLast_append_of_ne_nil (by simp), ih (by simp),
        List.intercalate_cons_cons]

/-- An empty line dispatches the data there is. -/
theorem dispatch_blank (b : Buffers) (rest : List (List Char)) :
    (dispatch b ([] :: rest)).map Message.data =
      (if b.data = [] then [] else [b.data.dropLast]) ++ (dispatch ⟨[], [], b.id⟩ rest).map Message.data := by
  by_cases h : b.data = [] <;> simp [dispatch, h]

theorem dataBlocks_blank (values : List (List Char)) (rest : List (List Char)) :
    dataBlocks values ([] :: rest) = (if values = [] then [] else [values]) ++ dataBlocks [] rest := by
  by_cases h : values = [] <;> simp [dataBlocks, h]

theorem pending_data {data : List Char} {values : List (List Char)} (h : data = values.flatMap (· ++ ['\n'])) :
    (if data = [] then [] else [data.dropLast]) =
      (if values = [] then [] else [values]).map (['\n'].intercalate ·) := by
  by_cases hvalues : values = []
  · rw [h, if_pos (flatMap_terminated_eq_nil.mpr hvalues), if_pos hvalues]
    rfl
  · rw [h, if_neg (mt flatMap_terminated_eq_nil.mp hvalues), if_neg hvalues, dropLast_flatMap_terminated hvalues]
    rfl

/-- The messages carry the data lines of the events, with a break between two of them. -/
theorem dispatch_data (lines : List (List Char)) (b : Buffers) (values : List (List Char))
    (h : b.data = values.flatMap (· ++ ['\n'])) :
    (dispatch b (lines ++ [[]])).map Message.data = (dataBlocks values lines).map (['\n'].intercalate ·) := by
  induction lines generalizing b values with
  | nil =>
    rw [List.nil_append, dispatch_blank, pending_data h, dispatch, List.map_nil, List.append_nil]
    rfl
  | cons line rest ih =>
    cases line with
    | nil =>
      rw [List.cons_append, dispatch_blank, dataBlocks_blank, List.map_append, pending_data h, ih _ [] rfl]
    | cons c tail =>
      by_cases hcomment : c = ':'
      · subst hcomment
        simpa [dispatch, dataBlocks, dataOf] using ih b values h
      · have hdata := setField_data b (c :: tail) (by simp) (by simpa using hcomment)
        rw [h, ← List.flatMap_append] at hdata
        rw [List.cons_append, dispatch, dataBlocks]
        · exact ih _ _ hdata
        · simp
        · simp
        · simpa using hcomment

end EventSource

end SmartTest.Lib
