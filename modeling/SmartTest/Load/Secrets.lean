import SmartTest.Lib.JsonRead
import SmartTest.Load.TextMatches

/-!
# Secrets in a text

The values that a reader of a stored response takes for secrets, bare or quoted or under a
sensitive key of the JSON they were cut from, and when `_redact_text` of
`services/api/load_test_executor.py` leaves nothing of them.
-/

open SmartTest.Lib SmartTest.Run

namespace SmartTest.Load

/-! ## Response bodies -/

def RESPONSE_LIMIT : Nat := 1048576

/-- What `_read_captured_body` finds in a response: something to read, chunks, an object with `json` (as its dump)
or plain `content`. -/
inductive CapturedSource where
  | read (body : List UInt8)
  | iterContent (chunks : List (List UInt8))
  | json (dump : List UInt8)
  | content (body : List UInt8)

/-- The chunks up to the one that reaches the limit. -/
def gatherChunks (limit size : Nat) : List (List UInt8) → List UInt8
  | [] => []
  | chunk :: rest =>
    chunk ++ if limit ≤ size + chunk.length then [] else gatherChunks limit (size + chunk.length) rest

def CapturedSource.body : CapturedSource → List UInt8
  | .read body => body.take (RESPONSE_LIMIT + 1)
  | .iterContent chunks => (gatherChunks (RESPONSE_LIMIT + 1) 0 chunks).take (RESPONSE_LIMIT + 1)
  | .json dump => dump
  | .content body => body

/-- `_read_captured_body`: the bytes that are kept, whether there are more, and how many were read. -/
def readCapturedBody (source : CapturedSource) : List UInt8 × Bool × Nat :=
  (source.body.take RESPONSE_LIMIT, decide (RESPONSE_LIMIT < source.body.length), source.body.length)

/-- The whole body of a response. -/
def CapturedSource.whole : CapturedSource → List UInt8
  | .read body | .json body | .content body => body
  | .iterContent chunks => chunks.flatten

theorem gatherChunks_take (limit : Nat) (chunks : List (List UInt8)) (size : Nat) :
    (gatherChunks limit size chunks).take (limit - size) = chunks.flatten.take (limit - size) := by
  induction chunks generalizing size with
  | nil => rfl
  | cons chunk rest ih =>
    unfold gatherChunks
    rw [List.flatten_cons, List.take_append, List.take_append, Nat.sub_sub]
    by_cases hreached : limit ≤ size + chunk.length
    · rw [if_pos hreached, Nat.sub_eq_zero_of_le hreached]
      rfl
    · rw [if_neg hreached, ih]

theorem body_take (source : CapturedSource) :
    source.body.take (RESPONSE_LIMIT + 1) = source.whole.take (RESPONSE_LIMIT + 1) := by
  cases source with
  | read body => exact List.take_take.trans (by rw [Nat.min_self]; rfl)
  | iterContent chunks =>
    have htake := gatherChunks_take (RESPONSE_LIMIT + 1) chunks 0
    rw [Nat.sub_zero] at htake
    unfold CapturedSource.body CapturedSource.whole
    rw [List.take_take, Nat.min_self, htake]
  | json dump => rfl
  | content body => rfl

/-- What is kept of a body is its first mebibyte, and it is known whether that is all. -/
theorem readCapturedBody_whole (source : CapturedSource) :
    (readCapturedBody source).1 = source.whole.take RESPONSE_LIMIT ∧
      ((readCapturedBody source).2.1 = true ↔ RESPONSE_LIMIT < source.whole.length) := by
  have htake := body_take source
  constructor
  · have hle := congrArg (List.take RESPONSE_LIMIT) htake
    rw [List.take_take, List.take_take, Nat.min_eq_left (Nat.le_succ _)] at hle
    exact hle
  · have hlength := congrArg List.length htake
    rw [List.length_take, List.length_take] at hlength
    unfold readCapturedBody
    rw [decide_eq_true_iff]
    omega

/-- The details that `_response_details` makes of what was read. -/
def storedDetails (readers : Readers) (source : CapturedSource) : Except StepError CapturedDetails :=
  responseDetails readers (readCapturedBody source).1 (readCapturedBody source).2.1 (readCapturedBody source).2.2

/-! ## Secrets of a text -/

/-- A comma, a semicolon, an ampersand or a line end. -/
def endsValue (c : Char) : Bool := c = ',' || c = ';' || c = '&' || c = '\n' || c = '\r'

/-- The text after a bare key, up to where it ends and without blanks about it. -/
structure BareValue (text start kept value after : List Char) : Prop where
  text_eq : text = start ++ kept ++ (value ++ after)
  key : Keyed kept
  inside : ∀ c ∈ value, endsValue c = false
  first : ∃ c rest, value = c :: rest ∧ isSpace c = false
  last : ∃ c rest, value = rest ++ [c] ∧ isSpace c = false
  ends : ∃ blanks rest, after = blanks ++ rest ∧ (∀ c ∈ blanks, isSpace c = true ∧ endsValue c = false) ∧
    ∀ c tail, rest = c :: tail → endsValue c = true

/-- The string literal, maybe cut by the end of the text, after a quoted key that is sensitive. -/
structure QuotedValue (lower : String → String) (text start value after : List Char) : Prop where
  text_eq : text = start ++ (value ++ after)
  key : ∃ before key name gap blank, start = before ++ '"' :: (key ++ '"' :: (gap ++ ':' :: blank)) ∧
    readString (key ++ ['"']) = some (name, []) ∧ isSensitive lower name = true ∧ Blanks gap ∧ Blanks blank
  literal : ∃ body tail string, value = '"' :: body ∧ readString (body ++ tail) = some (string, []) ∧
    (tail = [] ∨ after = [])

/-! ## JSON texts -/

/-- Characters, all of them under a sensitive key or none. -/
def shade (under : Bool) (chars : List Char) : List (Char × Bool) := chars.map fun c => (c, under)

mutual

/-- A text of a value, each character with whether it stands under a sensitive key. -/
inductive Shaded (sensitive : String → Bool) : Bool → Json → List (Char × Bool) → Prop where
  | null {under : Bool} : Shaded sensitive under .null (shade under "null".toList)
  | true {under : Bool} : Shaded sensitive under (.bool true) (shade under "true".toList)
  | false {under : Bool} : Shaded sensitive under (.bool false) (shade under "false".toList)
  | number {under : Bool} {readFloat : List Char → Option Rat} {chars : List Char} {value : Json}
      (h : readNumber readFloat chars = some (value, [])) : Shaded sensitive under value (shade under chars)
  | str {under : Bool} {chars : List Char} {s : String} (h : readString chars = some (s, [])) :
      Shaded sensitive under (.str s) (shade under ('"' :: chars))
  | arr {under : Bool} {items : List Json} {chars : List (Char × Bool)}
      (h : ShadedItems sensitive under items chars) :
      Shaded sensitive under (.arr items) (shade under ['['] ++ chars ++ shade under [']'])
  | obj {under : Bool} {fields : List (String × Json)} {chars : List (Char × Bool)}
      (h : ShadedFields sensitive under fields chars) :
      Shaded sensitive under (.obj (gatherFields fields)) (shade under ['\x7b'] ++ chars ++ shade under ['\x7d'])

inductive ShadedItems (sensitive : String → Bool) : Bool → List Json → List (Char × Bool) → Prop where
  | nil {under : Bool} {blank : List Char} (hblank : blank.all isBlank = true) :
      ShadedItems sensitive under [] (shade under blank)
  | one {under : Bool} {blank blank' : List Char} {item : Json} {chars : List (Char × Bool)}
      (hblank : (blank ++ blank').all isBlank = true) (h : Shaded sensitive under item chars) :
      ShadedItems sensitive under [item] (shade under blank ++ chars ++ shade under blank')
  | cons {under : Bool} {blank blank' : List Char} {item : Json} {items : List Json} {chars rest : List (Char × Bool)}
      (hblank : (blank ++ blank').all isBlank = true) (h : Shaded sensitive under item chars) (hitems : items ≠ [])
      (hrest : ShadedItems sensitive under items rest) :
      ShadedItems sensitive under (item :: items) (shade under blank ++ chars ++ shade under (blank' ++ [',']) ++ rest)

inductive ShadedFields (sensitive : String → Bool) : Bool → List (String × Json) → List (Char × Bool) → Prop where
  | nil {under : Bool} {blank : List Char} (hblank : blank.all isBlank = true) :
      ShadedFields sensitive under [] (shade under blank)
  | one {under : Bool} {blank key gap gap' blank' : List Char} {name : String} {item : Json}
      {chars : List (Char × Bool)} (hblank : (blank ++ gap ++ gap' ++ blank').all isBlank = true)
      (hkey : readString key = some (name, [])) (h : Shaded sensitive (under || sensitive name) item chars) :
      ShadedFields sensitive under [(name, item)]
        (shade under (blank ++ '"' :: (key ++ (gap ++ ':' :: gap'))) ++ chars ++ shade under blank')
  | cons {under : Bool} {blank key gap gap' blank' : List Char} {name : String} {item : Json}
      {fields : List (String × Json)} {chars rest : List (Char × Bool)}
      (hblank : (blank ++ gap ++ gap' ++ blank').all isBlank = true) (hkey : readString key = some (name, []))
      (h : Shaded sensitive (under || sensitive name) item chars) (hfields : fields ≠ [])
      (hrest : ShadedFields sensitive under fields rest) :
      ShadedFields sensitive under ((name, item) :: fields)
        (shade under (blank ++ '"' :: (key ++ (gap ++ ':' :: gap'))) ++ chars ++ shade under (blank' ++ [',']) ++ rest)

end

/-- A place in the text that stands under a sensitive key of a JSON response the text is the beginning of. -/
def CutSecret (readers : Readers) (text : List Char) (i : Nat) : Prop :=
  ∃ shaded value, Shaded (isSensitive readers.lower) false value shaded ∧
    readers.loads (.ofList (shaded.map Prod.fst)) = .value value ∧ text <+: shaded.map Prod.fst ∧
    i < text.length ∧ (shaded.map Prod.snd)[i]? = some true

/-- A place in the text that holds a character of a secret. -/
inductive Secret (readers : Readers) (truncated : Bool) (text : List Char) (i : Nat) : Prop where
  | bare {start kept value after : List Char} (h : BareValue text start kept value after)
      (hle : (start ++ kept).length ≤ i) (hlt : i < (start ++ kept).length + value.length)
  | quoted {start value after : List Char} (h : QuotedValue readers.lower text start value after)
      (hle : start.length ≤ i) (hlt : i < start.length + value.length)
  | cut (htruncated : truncated = true) (h : CutSecret readers text i)

/-! ## Bare values and matches -/

theorem valueChar_iff {c : Char} : isValueChar c = true ↔ isSpace c = false ∧ endsValue c = false := by
  have hnewline : isSpace '\n' = true := by decide
  have hreturn : isSpace '\r' = true := by decide
  unfold isValueChar endsValue
  simp only [Bool.and_eq_true, Bool.not_eq_true', decide_eq_true_eq, Bool.or_eq_false_iff, decide_eq_false_iff_not]
  constructor
  · rintro ⟨⟨⟨hspace, hcomma⟩, hsemicolon⟩, hampersand⟩
    refine ⟨hspace, ⟨⟨⟨hcomma, hsemicolon⟩, hampersand⟩, ?_⟩, ?_⟩
    · rintro rfl
      rw [hnewline] at hspace
      cases hspace
    · rintro rfl
      rw [hreturn] at hspace
      cases hspace
  · rintro ⟨hspace, ⟨⟨⟨hcomma, hsemicolon⟩, hampersand⟩, -⟩, -⟩
    exact ⟨⟨⟨hspace, hcomma⟩, hsemicolon⟩, hampersand⟩

/-- Where a bare value stands the pattern matches, up to the value's first blank. -/
theorem BareValue.matched {text start kept value after : List Char} (h : BareValue text start kept value after) :
    ∃ word rest, Matched (text.drop start.length) kept word rest ∧
      ((∀ c ∈ value, isSpace c = false) → value.length ≤ word.length) := by
  obtain ⟨c, left, hvalue, hspace⟩ := h.first
  have hdrop : text.drop start.length = kept ++ (value ++ after) := by
    rw [h.text_eq, List.append_assoc, List.drop_left]
  have hc : isValueChar c = true := valueChar_iff.mpr ⟨hspace, h.inside c (hvalue ▸ List.mem_cons_self)⟩
  refine ⟨(value ++ after).takeWhile isValueChar, (value ++ after).dropWhile isValueChar, ⟨?_, h.key, ?_, ?_, ?_⟩, ?_⟩
  · rw [List.takeWhile_append_dropWhile]
    exact hdrop
  · rw [hvalue, List.cons_append, List.takeWhile_cons_of_pos hc]
    exact List.cons_ne_nil _ _
  · exact fun d hd => List.mem_takeWhile_imp hd
  · exact fun d tail hrest => not_of_dropWhile_eq_cons hrest
  · intro hblank
    rw [List.takeWhile_append_of_pos fun d hd => valueChar_iff.mpr ⟨hblank d hd, h.inside d hd⟩, List.length_append]
    omega

/-- Where the pattern matches a bare value stands. -/
theorem Matched.exists_bareValue {text kept word after : List Char} {n : Nat}
    (h : Matched (text.drop n) kept word after) :
    ∃ start value rest, BareValue text start kept value rest ∧ start.length = n := by
  obtain ⟨c, left, hword⟩ := List.exists_cons_of_ne_nil h.word_ne
  have hc := valueChar_iff.mp (h.word_chars c (hword ▸ List.mem_cons_self))
  generalize hline : (word ++ after).takeWhile (fun d => !endsValue d) = line
  generalize hleft : (word ++ after).dropWhile (fun d => !endsValue d) = beyond
  have hwhole : word ++ after = line ++ beyond := by rw [← hline, ← hleft, List.takeWhile_append_dropWhile]
  have hinside : ∀ d ∈ line, endsValue d = false := by
    intro d hd
    rw [← hline] at hd
    simpa using List.mem_takeWhile_imp hd
  have hhead : ∃ more, line = c :: more := by
    rw [← hline, hword, List.cons_append, List.takeWhile_cons_of_pos (by rw [hc.2]; rfl)]
    exact ⟨_, rfl⟩
  -- The line up to its last character that is no blank.
  generalize hvalue : (line.reverse.dropWhile isSpace).reverse = value
  generalize hblanks : (line.reverse.takeWhile isSpace).reverse = blanks
  have hsplit : line = value ++ blanks := by
    rw [← hvalue, ← hblanks, ← List.reverse_append, List.takeWhile_append_dropWhile, List.reverse_reverse]
  have hlast : ∃ d rest, value = rest ++ [d] ∧ isSpace d = false := by
    cases hdrop : line.reverse.dropWhile isSpace with
    | nil =>
      obtain ⟨more, hmore⟩ := hhead
      have hspace := List.dropWhile_eq_nil_iff.mp hdrop c (by rw [hmore]; simp)
      rw [hc.1] at hspace
      cases hspace
    | cons d rest =>
      refine ⟨d, rest.reverse, ?_, not_of_dropWhile_eq_cons hdrop⟩
      rw [← hvalue, hdrop, List.reverse_cons]
  refine ⟨text.take n, value, blanks ++ beyond, ⟨?_, h.key, ?_, ?_, hlast, blanks, beyond, rfl, ?_, ?_⟩, ?_⟩
  · rw [← List.append_assoc value, ← hsplit, ← hwhole, List.append_assoc, ← h.text_eq, List.take_append_drop]
  · exact fun d hd => hinside d (hsplit ▸ List.mem_append_left _ hd)
  · obtain ⟨more, hmore⟩ := hhead
    obtain ⟨d, rest, hrest, -⟩ := hlast
    cases value with
    | nil => simp at hrest
    | cons e value =>
      rw [hmore, List.cons_append] at hsplit
      obtain ⟨rfl, -⟩ := List.cons.inj hsplit
      exact ⟨c, value, rfl, hc.1⟩
  · intro d hd
    refine ⟨?_, hinside d (hsplit ▸ List.mem_append_right _ hd)⟩
    rw [← hblanks, List.mem_reverse] at hd
    exact List.mem_takeWhile_imp hd
  · intro d tail hbeyond
    rw [← hleft] at hbeyond
    simpa using not_of_dropWhile_eq_cons hbeyond
  · have hlength := h.length_eq
    rw [List.length_take]
    omega

/-! ## When every secret is withheld -/

/-- Every secret is in one word after a bare key, with no blank about the separator of a key in another's word. -/
structure SecretsInWords (readers : Readers) (truncated : Bool) (text : List Char) : Prop where
  oneWord : ∀ start kept value after, BareValue text start kept value after → ∀ c ∈ value, isSpace c = false
  tight : Tight text
  quoted : ∀ start value after, QuotedValue readers.lower text start value after →
    ∀ i, start.length ≤ i → i < start.length + value.length → InWord text i
  cut : truncated = true → ∀ i, CutSecret readers text i → InWord text i

theorem secret_of_matched {readers : Readers} {truncated : Bool} {text kept word after : List Char} {n : Nat}
    (h : Matched (text.drop n) kept word after) : Secret readers truncated text (n + kept.length) := by
  obtain ⟨start, value, rest, hbare, rfl⟩ := h.exists_bareValue
  obtain ⟨c, left, hvalue, -⟩ := hbare.first
  refine .bare hbare (by rw [List.length_append]) ?_
  rw [List.length_append, hvalue, List.length_cons]
  omega

/-- All secrets of a text are withheld exactly when they are in words. -/
theorem secrets_withheld_iff {readers : Readers} {truncated : Bool} {text : List Char} :
    (∀ i, Secret readers truncated text i → Withheld text i) ↔ SecretsInWords readers truncated text := by
  constructor
  · intro h
    refine ⟨?_, ?_, ?_, ?_⟩
    · intro start kept value after hbare c hc
      obtain ⟨j, hj, hjc⟩ := List.mem_iff_getElem.mp hc
      have hwithheld := h ((start ++ kept).length + j) (.bare hbare (by omega) (by omega))
      obtain ⟨n, kept', word, after', hmatched, hle, hlt⟩ := hwithheld.inWord
      obtain ⟨d, hd, hvalue⟩ := hmatched.valueChar hle hlt
      rw [hbare.text_eq, List.getElem?_append_right (by omega), Nat.add_sub_cancel_left,
        List.getElem?_append_left hj, List.getElem?_eq_getElem hj, hjc] at hd
      cases hd
      exact valueChar_not_space hvalue
    · intro n m kept word after kept' word' after' hn hm hle hlt c hc
      by_contra hspace
      rw [Bool.not_eq_false] at hspace
      have hwithheld := h _ (secret_of_matched hm)
      -- The outer match is taken, or it stands in one that is.
      rcases TakenAt.or_within matches_tokens ((@found_iff _ _ ⟨kept, word⟩).mpr hn) with
        htaken | ⟨p, found, rest, hlt', htaken, hfound, hin⟩
      · exact not_withheld_of_blank htaken hn hm hle hlt hc hspace hwithheld
      · have hfirst := found_iff.mp hfound
        have hlength := hfirst.length_eq
        obtain ⟨j, rfl⟩ := Nat.exists_eq_add_of_lt hlt'
        have hdrop : Matched ((text.drop p).drop (j + 1)) kept word after := by
          rw [List.drop_drop]
          exact hn
        have hkept := hfirst.kept_le hdrop (Nat.succ_pos j)
        by_cases hblank : ∀ d ∈ kept, isSpace d = false
        · have hend := hfirst.word_eq hn (by omega) (by omega) hblank
          exact not_withheld_of_blank htaken hfirst hm (by omega) (by omega) hc hspace hwithheld
        · push Not at hblank
          obtain ⟨d, hd, hdspace⟩ := hblank
          rw [ne_eq, Bool.not_eq_false] at hdspace
          exact not_withheld_of_blank htaken hfirst hn (by omega) (by omega) hd hdspace (h _ (secret_of_matched hn))
    · exact fun start value after hquoted i hle hlt => (h i (.quoted hquoted hle hlt)).inWord
    · exact fun htruncated i hcut => (h i (.cut htruncated hcut)).inWord
  · intro h i hsecret
    refine InWord.withheld ?_ h.tight
    cases hsecret with
    | bare hbare hle hlt =>
      obtain ⟨word, rest, hmatched, hlength⟩ := hbare.matched
      have hword := hlength (h.oneWord _ _ _ _ hbare)
      rw [List.length_append] at hle hlt
      exact ⟨_, _, word, rest, hmatched, hle, by omega⟩
    | quoted hquoted hle hlt => exact h.quoted _ _ _ hquoted i hle hlt
    | cut htruncated hcut => exact h.cut htruncated i hcut

/-- What is kept of a text is its redaction. -/
theorem storedDetails_text {readers : Readers} {source : CapturedSource} {text : String} {details : CapturedDetails}
    (htext : readers.decode (readCapturedBody source).1 = some text) (hstored : storedDetails readers source = .ok details)
    (hkind : details.bodyKind = "text") : details.body = some (redactText text) := by
  unfold storedDetails responseDetails at hstored
  split_ifs at hstored with hempty
  · cases hstored
    simp at hkind
  · rw [htext] at hstored
    simp only at hstored
    cases hpayload : payloadOf readers text (readCapturedBody source).2.1 with
    | error e =>
      rw [hpayload] at hstored
      cases hstored
    | ok payload =>
      rw [hpayload] at hstored
      cases payload with
      | none =>
        cases hstored
        rfl
      | some value =>
        cases hstored
        simp at hkind

/-- The marker stands for every character of every secret of a text exactly when the secrets are in words. -/
theorem text_secrets_withheld_iff (readers : Readers) (source : CapturedSource) {text : String}
    {details : CapturedDetails} (htext : readers.decode (readCapturedBody source).1 = some text)
    (hstored : storedDetails readers source = .ok details) (hkind : details.bodyKind = "text") :
    (textPieces text.toList).flatMap pieceText = text.toList ∧
      details.body = some (.ofList ((textPieces text.toList).flatMap pieceStored)) ∧
      ((∀ i, Secret readers (readCapturedBody source).2.1 text.toList i → Withheld text.toList i) ↔
        SecretsInWords readers (readCapturedBody source).2.1 text.toList) := by
  refine ⟨pieces_text (textPieces_scans _), ?_, secrets_withheld_iff⟩
  rw [storedDetails_text htext hstored hkind, redactText_pieces]

/-- In a whole text without blanks and quotes all secrets are in words. -/
theorem secretsInWords_of_plain {readers : Readers} {text : List Char}
    (hplain : ∀ c ∈ text, isSpace c = false ∧ c ≠ '"') : SecretsInWords readers false text where
  oneWord := by
    intro start kept value after hbare c hc
    refine (hplain c ?_).1
    rw [hbare.text_eq]
    exact List.mem_append_right _ (List.mem_append_left _ hc)
  tight := by
    intro n m kept word after kept' word' after' hn hm hle hlt c hc
    have hmem : c ∈ text.drop m := by
      rw [hm.text_eq]
      exact List.mem_append_left _ hc
    exact (hplain c (List.mem_of_mem_drop hmem)).1
  quoted := by
    intro start value after hquoted
    obtain ⟨before, key, name, gap, blank, hstart, -⟩ := hquoted.key
    refine absurd rfl (hplain '"' ?_).2
    rw [hquoted.text_eq, hstart]
    simp
  cut := by
    intro h
    cases h

/-! ## Two texts -/

/-- Libraries that know ASCII and take no text for JSON. -/
def asciiReaders : Readers where
  decode raw := some (.ofList (raw.map fun b => Char.ofNat b.toNat))
  loads _ := .notJson
  lower := id
  floatText _ := []

def asciiBytes (text : List Char) : List UInt8 := text.map fun c => UInt8.ofNat c.toNat

def tokenText : List Char := "token=abc&x=1".toList

def tokenDetails : CapturedDetails := ⟨⟨some (redactText (.ofList tokenText)), "text", false, 13⟩, none⟩

theorem token_withheld : storedDetails asciiReaders (.content (asciiBytes tokenText)) = .ok tokenDetails ∧
    ∀ i, Secret asciiReaders false tokenText i → Withheld tokenText i := by
  refine ⟨rfl, ?_⟩
  have hplain : ∀ c ∈ tokenText, isSpace c = false ∧ c ≠ '"' := forall_mem_of_all (by decide +kernel)
  have h := (@text_secrets_withheld_iff asciiReaders (.content (asciiBytes tokenText)) (.ofList tokenText)
    tokenDetails (by decide +kernel) rfl rfl).2.2
  rw [String.toList_ofList] at h
  exact h.mpr (secretsInWords_of_plain hplain)

def bearerText : List Char := "Authorization: Bearer abc".toList

theorem bearer_token_stays : ¬ ∀ (readers : Readers) (source : CapturedSource) (text : String)
    (details : CapturedDetails), readers.decode (readCapturedBody source).1 = some text →
    storedDetails readers source = .ok details → details.bodyKind = "text" →
    ∀ i, Secret readers (readCapturedBody source).2.1 text.toList i → Withheld text.toList i := by
  intro h
  have hplace := h asciiReaders (.content (asciiBytes bearerText)) (.ofList bearerText)
    ⟨⟨some (redactText (.ofList bearerText)), "text", false, 25⟩, none⟩ (by decide +kernel) rfl rfl 22
  rw [String.toList_ofList] at hplace
  have hkeyed : Keyed "Authorization: ".toList :=
    ⟨"Authorization".toList, [], ':', [' '], by decide +kernel, ⟨"authorization", by decide, by decide +kernel⟩,
      forall_mem_of_all (by decide), by decide, forall_mem_of_all (by decide)⟩
  have hbare : BareValue bearerText [] "Authorization: ".toList "Bearer abc".toList [] :=
    ⟨by decide +kernel, hkeyed, forall_mem_of_all (by decide +kernel), ⟨'B', "earer abc".toList, by decide +kernel, by decide⟩,
      ⟨'c', "Bearer ab".toList, by decide +kernel, by decide⟩, ⟨[], [], rfl, forall_mem_of_all (by decide), by simp⟩⟩
  have hwithheld := hplace (.bare hbare (by decide +kernel) (by decide +kernel))
  exact absurd hwithheld (by decide +kernel)

end SmartTest.Load
