import SmartTest.Lib.Scan
import SmartTest.Load.Redaction

/-!
# What the text pattern withholds

The matches of the pattern of `_redact_text` in a text, and which characters of the text its
marker stands for: those in the words of the matches that the scan takes.
-/

open SmartTest.Lib SmartTest.Run

namespace SmartTest.Load

/-! ## What the marker stands for -/

/-- One match of the pattern: its first two groups, which stay, and its third. -/
structure SecretMatch where
  kept : List Char
  word : List Char

def matchParts (text : List Char) : Option (SecretMatch × List Char) :=
  (matchSecret text).map fun found =>
    (⟨found.1, (text.drop found.1.length).take (text.length - found.1.length - found.2.length)⟩, found.2)

def textPieces (text : List Char) : List (Piece Char SecretMatch) := scan matchParts 0 text

/-- What a piece is in the text. -/
def pieceText : Piece Char SecretMatch → List Char
  | .plain c => [c]
  | .token found => found.kept ++ found.word

/-- What is stored of it. -/
def pieceStored : Piece Char SecretMatch → List Char
  | .plain c => [c]
  | .token found => found.kept ++ REDACTED.toList

/-- Which of its characters the marker stands for. -/
def pieceMask : Piece Char SecretMatch → List Bool
  | .plain _ => [false]
  | .token found => List.replicate found.kept.length false ++ List.replicate found.word.length true

/-- The marker stands for the character at the place. -/
def Withheld (text : List Char) (i : Nat) : Prop := ((textPieces text).flatMap pieceMask)[i]? = some true

instance (text : List Char) (i : Nat) : Decidable (Withheld text i) :=
  inferInstanceAs (Decidable (_ = _))

/-! ## Keys -/

/-- One of the sensitive words, in any case. -/
def IsSensitiveWord (key : List Char) : Prop :=
  ∃ word ∈ SENSITIVE_RESPONSE_KEYS, key.map foldCase = word.toList

def Blanks (chars : List Char) : Prop := ∀ c ∈ chars, isSpace c = true

/-- A sensitive word, and `=` or `:` with blanks about it. -/
def Keyed (kept : List Char) : Prop :=
  ∃ key gap separator blank, kept = key ++ gap ++ separator :: blank ∧ IsSensitiveWord key ∧ Blanks gap ∧
    isSeparator separator = true ∧ Blanks blank

theorem sensitive_letters : SENSITIVE_RESPONSE_KEYS.all (fun word => word.toList ≠ [] &&
    word.toList.all fun c => decide (97 ≤ c.toNat ∧ c.toNat ≤ 122)) = true := by decide +kernel

/-- No word starts another, nor is one inside another. -/
theorem sensitive_apart : SENSITIVE_RESPONSE_KEYS.all (fun word => SENSITIVE_RESPONSE_KEYS.all fun other =>
    (List.range word.toList.length).all fun n =>
      (decide (word = other) && decide (n = 0)) || !other.toList.isPrefixOf (word.toList.drop n)) = true := by decide +kernel

/-- What a letter is the lower case of. -/
theorem foldCase_letter {c : Char} (h : 97 ≤ (foldCase c).toNat ∧ (foldCase c).toNat ≤ 122) :
    (65 ≤ c.toNat ∧ c.toNat ≤ 90) ∨ (97 ≤ c.toNat ∧ c.toNat ≤ 122) ∨ c.toNat = 0x212a ∨ c.toNat = 0x17f ∨
      c.toNat = 0x130 ∨ c.toNat = 0x131 := by
  unfold foldCase at h
  split_ifs at h with hupper hkelvin hlong hdotted
  · have hlow : 65 ≤ c.toNat := hupper.1
    have hhigh : c.toNat ≤ 90 := hupper.2
    exact .inl ⟨hlow, hhigh⟩
  · exact .inr (.inr (.inl hkelvin))
  · exact .inr (.inr (.inr (.inl hlong)))
  · exact .inr (.inr (.inr (.inr hdotted)))
  · exact .inr (.inl h)

theorem not_space_of_fold {c : Char} (h : 97 ≤ (foldCase c).toNat ∧ (foldCase c).toNat ≤ 122) : isSpace c = false := by
  have hcases := foldCase_letter h
  simp only [isSpace, Bool.or_eq_false_iff, Bool.and_eq_false_iff, decide_eq_false_iff_not]
  omega

theorem ne_of_fold {c d : Char} (h : 97 ≤ (foldCase c).toNat ∧ (foldCase c).toNat ≤ 122) (hd : d.toNat < 65) :
    c ≠ d := by
  have hcases := foldCase_letter h
  rintro rfl
  omega

/-- The characters of a sensitive word are letters. -/
theorem IsSensitiveWord.letter {key : List Char} (h : IsSensitiveWord key) {c : Char} (hc : c ∈ key) :
    97 ≤ (foldCase c).toNat ∧ (foldCase c).toNat ≤ 122 := by
  obtain ⟨word, hword, hfold⟩ := h
  have hletters := List.all_eq_true.mp sensitive_letters word hword
  rw [Bool.and_eq_true] at hletters
  have hmem : foldCase c ∈ word.toList := by
    rw [← hfold]
    exact List.mem_map_of_mem hc
  exact forall_mem_of_all hletters.2 _ hmem

theorem IsSensitiveWord.ne_nil {key : List Char} (h : IsSensitiveWord key) : key ≠ [] := by
  obtain ⟨word, hword, hfold⟩ := h
  have hletters := List.all_eq_true.mp sensitive_letters word hword
  rw [Bool.and_eq_true, decide_eq_true_iff] at hletters
  rintro rfl
  exact hletters.1 hfold.symm

theorem IsSensitiveWord.not_space {key : List Char} (h : IsSensitiveWord key) {c : Char} (hc : c ∈ key) :
    isSpace c = false := not_space_of_fold (h.letter hc)

theorem IsSensitiveWord.not_separator {key : List Char} (h : IsSensitiveWord key) {c : Char} (hc : c ∈ key) :
    isSeparator c = false := by
  have hletter := h.letter hc
  unfold isSeparator
  rw [Bool.or_eq_false_iff, decide_eq_false_iff_not, decide_eq_false_iff_not]
  exact ⟨ne_of_fold hletter (by decide), ne_of_fold hletter (by decide)⟩

theorem IsSensitiveWord.isValueChar {key : List Char} (h : IsSensitiveWord key) {c : Char} (hc : c ∈ key) :
    isValueChar c = true := by
  have hletter := h.letter hc
  unfold Load.isValueChar
  rw [h.not_space hc, Bool.and_eq_true, Bool.and_eq_true, Bool.and_eq_true, decide_eq_true_iff, decide_eq_true_iff,
    decide_eq_true_iff]
  exact ⟨⟨⟨rfl, ne_of_fold hletter (by decide)⟩, ne_of_fold hletter (by decide)⟩, ne_of_fold hletter (by decide)⟩

/-- A sensitive word that stands in another one is that one. -/
theorem IsSensitiveWord.within {key other : List Char} (h : IsSensitiveWord key) (hother : IsSensitiveWord other)
    (before after : List Char) (heq : key = before ++ (other ++ after)) : before = [] ∧ after = [] := by
  obtain ⟨word, hword, hfold⟩ := h
  obtain ⟨word', hword', hfold'⟩ := hother
  have hne : other ≠ [] := IsSensitiveWord.ne_nil ⟨word', hword', hfold'⟩
  have hsplit : word.toList = before.map foldCase ++ (word'.toList ++ after.map foldCase) := by
    rw [← hfold, ← hfold', heq, List.map_append, List.map_append]
  have hlength := congrArg List.length hsplit
  rw [List.length_append, List.length_append, List.length_map, ← hfold', List.length_map] at hlength
  have hpos := List.length_pos_iff.mpr hne
  have hapart := List.all_eq_true.mp (List.all_eq_true.mp (List.all_eq_true.mp sensitive_apart word hword) word' hword')
    before.length (List.mem_range.mpr (by omega))
  rw [Bool.or_eq_true, Bool.and_eq_true, decide_eq_true_iff, decide_eq_true_iff, Bool.not_eq_true'] at hapart
  rcases hapart with ⟨rfl, hzero⟩ | hnot
  · have hbefore := List.length_eq_zero_iff.mp hzero
    subst hbefore
    have hafter : (after.map foldCase).length = 0 := by
      have := congrArg List.length hsplit
      simp only [List.map_nil, List.nil_append, List.length_append] at this
      omega
    rw [List.length_map] at hafter
    exact ⟨rfl, List.length_eq_zero_iff.mp hafter⟩
  · exfalso
    rw [hsplit, List.drop_append_of_le_length (by rw [List.length_map]), List.drop_of_length_le (by rw [List.length_map]),
      List.nil_append] at hnot
    have hhead : word'.toList.isPrefixOf (word'.toList ++ after.map foldCase) = true :=
      List.isPrefixOf_iff_prefix.mpr (List.prefix_append _ _)
    rw [hhead] at hnot
    cases hnot

/-! ## The pattern -/

theorem takeWord_eq_some_iff {word text key rest : List Char} :
    takeWord word text = some (key, rest) ↔ text = key ++ rest ∧ key.map foldCase = word := by
  unfold takeWord
  constructor
  · intro h
    split_ifs at h with hfold
    cases h
    exact ⟨(List.take_append_drop _ _).symm, hfold⟩
  · rintro ⟨rfl, rfl⟩
    rw [List.length_map, List.take_left, List.drop_left, if_pos rfl]

theorem takeKey_eq_some_iff {text key rest : List Char} :
    takeKey text = some (key, rest) ↔ text = key ++ rest ∧ IsSensitiveWord key := by
  unfold takeKey
  constructor
  · intro h
    obtain ⟨word, hword, hfound⟩ := List.exists_of_findSome?_eq_some h
    obtain ⟨htext, hfold⟩ := takeWord_eq_some_iff.mp hfound
    exact ⟨htext, word, hword, hfold⟩
  · rintro ⟨rfl, hkey⟩
    obtain ⟨word, hword, hfold⟩ := hkey
    have hsome : (SENSITIVE_RESPONSE_KEYS.findSome? fun w => takeWord w.toList (key ++ rest)).isSome = true := by
      rw [List.findSome?_isSome_iff]
      exact ⟨word, hword, by rw [takeWord_eq_some_iff.mpr ⟨rfl, hfold⟩]; rfl⟩
    obtain ⟨found, hfound⟩ := Option.isSome_iff_exists.mp hsome
    obtain ⟨word', hword', htaken⟩ := List.exists_of_findSome?_eq_some hfound
    obtain ⟨key', rest'⟩ := found
    obtain ⟨heq, hfold'⟩ := takeWord_eq_some_iff.mp htaken
    rw [hfound]
    -- Of two words at the front of a text one starts the other.
    rcases List.append_eq_append_iff.mp heq with ⟨more, hmore, hrest⟩ | ⟨more, hmore, hrest⟩
    · obtain ⟨-, rfl⟩ := IsSensitiveWord.within ⟨word', hword', hfold'⟩ ⟨word, hword, hfold⟩ [] more hmore
      rw [hmore, hrest, List.append_nil, List.nil_append]
    · obtain ⟨-, rfl⟩ := IsSensitiveWord.within ⟨word, hword, hfold⟩ ⟨word', hword', hfold'⟩ [] more hmore
      rw [hmore, hrest, List.append_nil, List.nil_append]

/-- What the pattern finds at the start of a text. -/
structure Matched (text kept word after : List Char) : Prop where
  text_eq : text = kept ++ (word ++ after)
  key : Keyed kept
  word_ne : word ≠ []
  word_chars : ∀ c ∈ word, isValueChar c = true
  ends : ∀ c tail, after = c :: tail → isValueChar c = false

theorem space_not_valueChar {c : Char} (h : isSpace c = true) : isValueChar c = false := by
  unfold isValueChar
  rw [h]
  rfl

theorem valueChar_not_space {c : Char} (h : isValueChar c = true) : isSpace c = false := by
  cases hc : isSpace c with
  | false => rfl
  | true =>
    rw [space_not_valueChar hc] at h
    cases h

theorem separator_not_space {c : Char} (h : isSeparator c = true) : isSpace c = false := by
  unfold isSeparator at h
  rw [Bool.or_eq_true, decide_eq_true_iff, decide_eq_true_iff] at h
  rcases h with rfl | rfl
  · decide
  · decide

theorem not_of_dropWhile_eq_cons {p : Char → Bool} {l : List Char} {c : Char} {tail : List Char}
    (h : l.dropWhile p = c :: tail) : p c = false := by
  have hhead := List.head?_dropWhile_not p l
  rw [h] at hhead
  simpa using hhead

theorem matchSecret_eq_some {text kept after : List Char} (h : matchSecret text = some (kept, after)) :
    ∃ word, Matched text kept word after := by
  unfold matchSecret at h
  obtain ⟨⟨key, rest⟩, hkey, hfound⟩ := Option.bind_eq_some_iff.mp h
  simp only at hfound
  obtain ⟨htext, hkey⟩ := takeKey_eq_some_iff.mp hkey
  cases hdrop : rest.dropWhile isSpace with
  | nil =>
    rw [hdrop] at hfound
    cases hfound
  | cons separator left =>
    rw [hdrop] at hfound
    simp only at hfound
    split_ifs at hfound with hword
    cases hfound
    obtain ⟨hseparator, hword⟩ := hword
    refine ⟨(left.dropWhile isSpace).takeWhile isValueChar, ?_, ?_, hword, ?_, ?_⟩
    · rw [List.takeWhile_append_dropWhile, htext]
      have hrest : rest = rest.takeWhile isSpace ++ separator :: left := by
        rw [← hdrop, List.takeWhile_append_dropWhile]
      have hleft := List.takeWhile_append_dropWhile (p := isSpace) (l := left)
      rw [List.append_assoc, List.append_assoc, List.cons_append, hleft, ← hrest]
    · exact ⟨key, rest.takeWhile isSpace, separator, left.takeWhile isSpace, rfl, hkey,
        fun c hc => List.mem_takeWhile_imp hc, hseparator, fun c hc => List.mem_takeWhile_imp hc⟩
    · exact fun c hc => List.mem_takeWhile_imp hc
    · exact fun c tail hafter => not_of_dropWhile_eq_cons hafter

theorem Matched.matchSecret {text kept word after : List Char} (h : Matched text kept word after) :
    matchSecret text = some (kept, after) := by
  obtain ⟨htext, hkeyed, hne, hword, hends⟩ := h
  obtain ⟨key, gap, separator, blank, rfl, hkey, hgap, hseparator, hblank⟩ := hkeyed
  have htaken : takeKey text = some (key, gap ++ separator :: (blank ++ (word ++ after))) := by
    rw [takeKey_eq_some_iff, htext]
    simp only [List.append_assoc, List.cons_append]
    exact ⟨trivial, hkey⟩
  have hgap := takeWhile_append_stop (blank ++ (word ++ after)) hgap (separator_not_space hseparator)
  have hblank : (blank ++ (word ++ after)).takeWhile isSpace = blank ∧
      (blank ++ (word ++ after)).dropWhile isSpace = word ++ after := by
    refine takeWhile_append_ends hblank ?_
    intro c tail heq
    cases word with
    | nil => exact absurd rfl hne
    | cons d word =>
      cases heq
      exact valueChar_not_space (hword _ List.mem_cons_self)
  have hvalue := takeWhile_append_ends hword hends
  unfold Load.matchSecret
  rw [htaken]
  simp only [Option.bind_eq_bind, Option.bind_some, hgap.1, hgap.2, hblank.1, hblank.2, hvalue.1, hvalue.2, hseparator]
  rw [if_pos ⟨trivial, hne⟩]
  rfl

theorem Matched.unique {text kept kept' word word' after after' : List Char} (h : Matched text kept word after)
    (h' : Matched text kept' word' after') : kept = kept' ∧ word = word' ∧ after = after' := by
  have hsame := h.matchSecret.symm.trans h'.matchSecret
  rw [Option.some.injEq, Prod.mk.injEq] at hsame
  obtain ⟨rfl, rfl⟩ := hsame
  have heq := h.text_eq.symm.trans h'.text_eq
  exact ⟨rfl, List.append_cancel_right (List.append_cancel_left heq), rfl⟩

theorem found_iff {text after : List Char} {found : SecretMatch} :
    Found matchParts text found after ↔ Matched text found.kept found.word after := by
  unfold Found matchParts
  rw [Option.map_eq_some_iff]
  constructor
  · rintro ⟨⟨kept, left⟩, hfound, heq⟩
    rw [Prod.mk.injEq] at heq
    obtain ⟨rfl, rfl⟩ := heq
    obtain ⟨word, hmatched⟩ := matchSecret_eq_some hfound
    have hword : (text.drop kept.length).take (text.length - kept.length - left.length) = word := by
      rw [hmatched.text_eq, List.drop_left, List.length_append, List.length_append, Nat.add_sub_cancel_left,
        Nat.add_sub_cancel, List.take_left]
    rw [hword]
    exact hmatched
  · intro hmatched
    refine ⟨(found.kept, after), hmatched.matchSecret, ?_⟩
    have hword : (text.drop found.kept.length).take (text.length - found.kept.length - after.length) = found.word := by
      rw [hmatched.text_eq, List.drop_left, List.length_append, List.length_append, Nat.add_sub_cancel_left,
        Nat.add_sub_cancel, List.take_left]
    rw [hword]

theorem Keyed.ne_nil {kept : List Char} (h : Keyed kept) : kept ≠ [] := by
  obtain ⟨key, gap, separator, blank, rfl, -⟩ := h
  simp

theorem matches_tokens : Tokens (Found matchParts) where
  unique := by
    intro text found found' after after' h h'
    obtain ⟨hkept, hword, hafter⟩ := (found_iff.mp h).unique (found_iff.mp h')
    cases found
    cases found'
    cases hkept
    cases hword
    exact ⟨rfl, hafter⟩
  taken := by
    intro text found after h
    have hmatched := found_iff.mp h
    refine ⟨found.kept ++ found.word, ?_, ?_⟩
    · simp [hmatched.key.ne_nil]
    · rw [List.append_assoc]
      exact hmatched.text_eq

/-! ## Pieces of a text -/

theorem textPieces_scans (text : List Char) : Scan (Found matchParts) text (textPieces text) :=
  scan_scans matches_tokens text

theorem pieces_text {text : List Char} {pieces : List (Piece Char SecretMatch)}
    (hscan : Scan (Found matchParts) text pieces) : pieces.flatMap pieceText = text := by
  induction hscan with
  | nil => rfl
  | plain _ _ ih => rw [List.flatMap_cons, ih, pieceText, List.singleton_append]
  | token hfound _ ih =>
    rw [List.flatMap_cons, ih, (found_iff.mp hfound).text_eq, pieceText, List.append_assoc]

theorem matchSecret_parts : matchSecret = fun text => (matchParts text).map (Prod.map SecretMatch.kept id) := by
  funext text
  unfold matchParts
  rw [Option.map_map]
  exact (Option.map_id_apply).symm

/-- A piece without its third group. -/
def keptPiece : Piece Char SecretMatch → Piece Char (List Char)
  | .plain c => .plain c
  | .token found => .token found.kept

/-- What is stored of the text is what is stored of its pieces. -/
theorem redactText_pieces (text : String) :
    redactText text = .ofList ((textPieces text.toList).flatMap pieceStored) := by
  unfold redactText textPieces
  rw [matchSecret_parts, scan_map SecretMatch.kept keptPiece (fun _ => rfl) (fun _ => rfl), List.flatMap_map]
  congr 1
  apply List.flatMap_congr
  intro piece _
  cases piece with
  | plain c => rfl
  | token found => rfl

/-- The marker stands for what is in the word of a match that the scan takes. -/
theorem mask_iff {text : List Char} {pieces : List (Piece Char SecretMatch)} (hscan : Scan (Found matchParts) text pieces)
    (i : Nat) : (pieces.flatMap pieceMask)[i]? = some true ↔ ∃ n kept word after,
      TakenAt (Found matchParts) text n ∧ Matched (text.drop n) kept word after ∧ n + kept.length ≤ i ∧
        i < n + kept.length + word.length := by
  induction hscan generalizing i with
  | nil =>
    constructor
    · intro h
      cases h
    · rintro ⟨n, kept, word, after, -, hmatched, -⟩
      rw [List.drop_nil] at hmatched
      exact absurd rfl (matches_tokens.ne_nil ((@found_iff _ _ ⟨kept, word⟩).mpr hmatched))
  | plain hno _ ih =>
    rw [List.flatMap_cons, pieceMask, List.singleton_append]
    cases i with
    | zero =>
      constructor
      · intro h
        cases h
      · rintro ⟨n, kept, word, after, htaken, -, hle, -⟩
        obtain ⟨m, rfl, -⟩ := htaken.of_plain hno
        omega
    | succ i =>
      rw [List.getElem?_cons_succ, ih]
      constructor
      · rintro ⟨n, kept, word, after, htaken, hmatched, hle, hlt⟩
        exact ⟨n + 1, kept, word, after, .plain hno htaken, hmatched, by omega, by omega⟩
      · rintro ⟨n, kept, word, after, htaken, hmatched, hle, hlt⟩
        obtain ⟨m, rfl, hrest⟩ := htaken.of_plain hno
        exact ⟨m, kept, word, after, hrest, hmatched, by omega, by omega⟩
  | @token text left found pieces hfound _ ih =>
    have hfirst := found_iff.mp hfound
    have htext : text = (found.kept ++ found.word) ++ left := by
      rw [List.append_assoc]
      exact hfirst.text_eq
    have hdrop : ∀ m, text.drop ((found.kept ++ found.word).length + m) = left.drop m := by
      intro m
      rw [htext, List.drop_length_add_append]
    have hlength : (pieceMask (.token found)).length = (found.kept ++ found.word).length := by
      rw [pieceMask, List.length_append, List.length_replicate, List.length_replicate, List.length_append]
    rw [List.flatMap_cons]
    by_cases hin : i < (found.kept ++ found.word).length
    · rw [List.getElem?_append_left (by omega), pieceMask]
      rw [List.length_append] at hin
      constructor
      · intro h
        have hkept : found.kept.length ≤ i := by
          by_contra hlt
          rw [List.getElem?_append_left (by rw [List.length_replicate]; omega),
            List.getElem?_replicate_of_lt (by omega)] at h
          cases h
        exact ⟨0, found.kept, found.word, left, .here hfound, hfirst, by omega, by omega⟩
      · rintro ⟨n, kept, word, after, htaken, hmatched, hle, hlt⟩
        rcases htaken.of_starts matches_tokens htext hfound with rfl | ⟨m, rfl, -⟩
        · obtain ⟨rfl, rfl, -⟩ := hmatched.unique hfirst
          rw [List.getElem?_append_right (by rw [List.length_replicate]; omega),
            List.getElem?_replicate_of_lt (by rw [List.length_replicate]; omega)]
        · rw [List.length_append] at hle
          omega
    · rw [List.getElem?_append_right (by omega), hlength, ih]
      constructor
      · rintro ⟨n, kept, word, after, htaken, hmatched, hle, hlt⟩
        refine ⟨(found.kept ++ found.word).length + n, kept, word, after, .token htext hfound htaken, ?_, by omega, by omega⟩
        rw [hdrop]
        exact hmatched
      · rintro ⟨n, kept, word, after, htaken, hmatched, hle, hlt⟩
        rcases htaken.of_starts matches_tokens htext hfound with rfl | ⟨m, rfl, hrest⟩
        · obtain ⟨rfl, rfl, -⟩ := hmatched.unique hfirst
          rw [List.length_append] at hin
          omega
        · rw [hdrop] at hmatched
          exact ⟨m, kept, word, after, hrest, hmatched, by omega, by omega⟩

theorem withheld_iff {text : List Char} {i : Nat} : Withheld text i ↔ ∃ n kept word after,
    TakenAt (Found matchParts) text n ∧ Matched (text.drop n) kept word after ∧ n + kept.length ≤ i ∧
      i < n + kept.length + word.length :=
  mask_iff (textPieces_scans text) i

/-! ## Matches beside each other -/

/-- The character stands in the word of a place where the pattern matches. -/
def InWord (text : List Char) (i : Nat) : Prop :=
  ∃ n kept word after, Matched (text.drop n) kept word after ∧ n + kept.length ≤ i ∧ i < n + kept.length + word.length

theorem Keyed.head {kept : List Char} (h : Keyed kept) : ∃ c rest, kept = c :: rest ∧ isSpace c = false ∧
    isSeparator c = false := by
  obtain ⟨key, gap, separator, blank, rfl, hkey, -⟩ := h
  cases key with
  | nil => exact absurd rfl hkey.ne_nil
  | cons c key => exact ⟨c, _, rfl, hkey.not_space List.mem_cons_self, hkey.not_separator List.mem_cons_self⟩

/-- What has no blank before the value is characters of values. -/
theorem Keyed.valueChars {kept : List Char} (h : Keyed kept) (hblank : ∀ c ∈ kept, isSpace c = false) :
    ∀ c ∈ kept, isValueChar c = true := by
  obtain ⟨key, gap, separator, blank, rfl, hkey, hgap, hseparator, hafter⟩ := h
  intro c hc
  have hspace := hblank c hc
  rw [List.mem_append, List.mem_append, List.mem_cons] at hc
  rcases hc with (hc | hc) | rfl | hc
  · exact hkey.isValueChar hc
  · rw [hgap c hc] at hspace
    cases hspace
  · unfold isSeparator at hseparator
    rw [Bool.or_eq_true, decide_eq_true_iff, decide_eq_true_iff] at hseparator
    rcases hseparator with rfl | rfl
    · decide
    · decide
  · rw [hafter c hc] at hspace
    cases hspace

namespace Matched

variable {text kept kept' word word' after after' : List Char} {n : Nat}

/-- No match starts inside the first two groups of another. -/
theorem kept_le (h : Matched text kept word after) (h' : Matched (text.drop n) kept' word' after') (hpos : 0 < n) :
    kept.length ≤ n := by
  by_contra hlt
  obtain ⟨key, gap, separator, blank, hkept, hkey, hgap, hseparator, hblank⟩ := h.key
  obtain ⟨key', gap', separator', blank', hkept', hkey', -⟩ := h'.key
  have hedge : ∀ c ∈ gap ++ separator :: blank, isSpace c = true ∨ isSeparator c = true := by
    intro c hc
    rw [List.mem_append, List.mem_cons] at hc
    rcases hc with hc | rfl | hc
    · exact .inl (hgap c hc)
    · exact .inr hseparator
    · exact .inl (hblank c hc)
  have hnot : ∀ c ∈ key', ¬ (isSpace c = true ∨ isSeparator c = true) := by
    intro c hc hor
    rw [hkey'.not_space hc, hkey'.not_separator hc] at hor
    rcases hor with hor | hor
    · cases hor
    · cases hor
  have hsplit : kept.drop n ++ (word ++ after) = key' ++ (gap' ++ separator' :: blank' ++ (word' ++ after')) := by
    have hdrop := h'.text_eq
    rw [h.text_eq, List.drop_append_of_le_length (by omega)] at hdrop
    rw [hdrop, hkept']
    simp only [List.append_assoc]
  rw [hkept, List.append_assoc] at hsplit
  rw [hkept, List.append_assoc, List.length_append] at hlt
  by_cases hin : n < key.length
  · -- In the key: another one would stand in it, or go on into what is after it.
    rw [List.drop_append_of_le_length (by omega), List.append_assoc] at hsplit
    rcases List.append_eq_append_iff.mp hsplit with ⟨more, hmore, hrest⟩ | ⟨more, hmore, -⟩
    · cases more with
      | nil =>
        rw [List.append_nil] at hmore
        have hwithin := hkey.within hkey' (key.take n) []
          (by rw [List.append_nil, hmore, List.take_append_drop])
        have hlength := congrArg List.length hwithin.1
        rw [List.length_take, List.length_nil] at hlength
        omega
      | cons c more =>
        have hmem : c ∈ gap ++ separator :: blank := by
          cases gap with
          | nil =>
            obtain ⟨rfl, -⟩ := List.cons.inj hrest
            exact List.mem_cons_self
          | cons d gap =>
            obtain ⟨rfl, -⟩ := List.cons.inj hrest
            exact List.mem_cons_self
        exact hnot c (by rw [hmore]; exact List.mem_append_right _ List.mem_cons_self) (hedge c hmem)
    · have hwithin := hkey.within hkey' (key.take n) more
        (by rw [← hmore, List.take_append_drop])
      have hlength := congrArg List.length hwithin.1
      rw [List.length_take, List.length_nil] at hlength
      omega
  · -- In what is after the key: there are no letters.
    obtain ⟨j, rfl⟩ := Nat.exists_eq_add_of_le (Nat.not_lt.mp hin)
    rw [List.drop_length_add_append] at hsplit
    cases hdrop : (gap ++ separator :: blank).drop j with
    | nil =>
      have hlength := List.drop_eq_nil_iff.mp hdrop
      omega
    | cons c rest =>
      rw [hdrop] at hsplit
      have hmem : c ∈ gap ++ separator :: blank := List.mem_of_mem_drop (hdrop ▸ List.mem_cons_self)
      cases key' with
      | nil => exact hkey'.ne_nil rfl
      | cons d key' =>
        obtain ⟨rfl, -⟩ := List.cons.inj hsplit
        exact hnot _ List.mem_cons_self (hedge _ hmem)

theorem getElem?_kept {i : Nat} (h : Matched (text.drop n) kept word after) (hlt : i < kept.length) :
    text[n + i]? = kept[i]? := by
  rw [← List.getElem?_drop, h.text_eq, List.getElem?_append_left hlt]

/-- What stands in the word of a match has no blank. -/
theorem valueChar {i : Nat} (h : Matched (text.drop n) kept word after) (hle : n + kept.length ≤ i)
    (hlt : i < n + kept.length + word.length) : ∃ c, text[i]? = some c ∧ isValueChar c = true := by
  obtain ⟨j, rfl⟩ := Nat.exists_eq_add_of_le hle
  have hj : j < word.length := by omega
  refine ⟨word[j], ?_, h.word_chars _ (List.getElem_mem hj)⟩
  rw [Nat.add_assoc, ← List.getElem?_drop, h.text_eq, List.getElem?_append_right (by omega), Nat.add_sub_cancel_left,
    List.getElem?_append_left hj, List.getElem?_eq_getElem hj]

theorem length_eq (h : Matched (text.drop n) kept word after) :
    text.length = n + kept.length + word.length + after.length := by
  have hlength := congrArg List.length h.text_eq
  have hpos := List.length_pos_iff.mpr h.key.ne_nil
  rw [List.length_drop, List.length_append, List.length_append] at hlength
  omega

/-- A match that starts in the word of another and has no blank ends where that does. -/
theorem word_eq {m : Nat} (h : Matched (text.drop n) kept word after) (h' : Matched (text.drop m) kept' word' after')
    (hle : n + kept.length ≤ m) (hlt : m < n + kept.length + word.length) (hblank : ∀ c ∈ kept', isSpace c = false) :
    m + kept'.length + word'.length = n + kept.length + word.length := by
  obtain ⟨j, rfl⟩ := Nat.exists_eq_add_of_le hle
  have hdrop : word.drop j ++ after = (kept' ++ word') ++ after' := by
    rw [List.append_assoc, ← h'.text_eq, Nat.add_assoc, ← List.drop_drop, h.text_eq, List.drop_length_add_append,
      List.drop_append_of_le_length (by omega)]
  have hvalue : ∀ c ∈ kept' ++ word', isValueChar c = true := by
    intro c hc
    rcases List.mem_append.mp hc with hc | hc
    · exact h'.key.valueChars hblank c hc
    · exact h'.word_chars c hc
  have hword : (word.drop j ++ after).takeWhile isValueChar = word.drop j :=
    (takeWhile_append_ends (fun c hc => h.word_chars c (List.mem_of_mem_drop hc)) h.ends).1
  have hword' : (kept' ++ word' ++ after').takeWhile isValueChar = kept' ++ word' :=
    (takeWhile_append_ends hvalue h'.ends).1
  have hsame : word.drop j = kept' ++ word' := by rw [← hword, ← hword', hdrop]
  have hlength := congrArg List.length hsame
  rw [List.length_drop, List.length_append] at hlength
  omega

end Matched

/-! ## What is withheld -/

section Withheld

variable {text : List Char} {i : Nat}

theorem Withheld.inWord (h : Withheld text i) : InWord text i := by
  obtain ⟨n, kept, word, after, -, hmatched, hle, hlt⟩ := withheld_iff.mp h
  exact ⟨n, kept, word, after, hmatched, hle, hlt⟩

/-- A key that stands in the word of a match has no blank about its separator. -/
def Tight (text : List Char) : Prop :=
  ∀ n m kept word after kept' word' after', Matched (text.drop n) kept word after →
    Matched (text.drop m) kept' word' after' → n + kept.length ≤ m → m < n + kept.length + word.length →
    ∀ c ∈ kept', isSpace c = false

/-- In a tight text all words are withheld. -/
theorem InWord.withheld (h : InWord text i) (htight : Tight text) : Withheld text i := by
  obtain ⟨n, kept, word, after, hmatched, hle, hlt⟩ := h
  rw [withheld_iff]
  rcases TakenAt.or_within matches_tokens ((@found_iff _ _ ⟨kept, word⟩).mpr hmatched) with
    htaken | ⟨m, found, rest, hlt', htaken, hfound, hin⟩
  · exact ⟨n, kept, word, after, htaken, hmatched, hle, hlt⟩
  · have hfirst := found_iff.mp hfound
    have hlength := hfirst.length_eq
    obtain ⟨j, rfl⟩ := Nat.exists_eq_add_of_lt hlt'
    have hdrop : Matched ((text.drop m).drop (j + 1)) kept word after := by
      rw [List.drop_drop]
      exact hmatched
    have hkept := hfirst.kept_le hdrop (Nat.succ_pos j)
    have hblank := htight _ _ _ _ _ _ _ _ hfirst hmatched (by omega) (by omega)
    have hend := hfirst.word_eq hmatched (by omega) (by omega) hblank
    exact ⟨m, found.kept, found.word, rest, htaken, hfirst, by omega, by omega⟩

/-- What a key with a blank that stands in the word of a match has for a value stays. -/
theorem not_withheld_of_blank {n m : Nat} {kept kept' word word' after after' : List Char}
    (htaken : TakenAt (Found matchParts) text n) (h : Matched (text.drop n) kept word after)
    (h' : Matched (text.drop m) kept' word' after') (hle : n + kept.length ≤ m)
    (hlt : m < n + kept.length + word.length) {c : Char} (hc : c ∈ kept') (hspace : isSpace c = true) :
    ¬ Withheld text (m + kept'.length) := by
  intro hwithheld
  obtain ⟨p, keptP, wordP, afterP, htakenP, hp, hleP, hltP⟩ := withheld_iff.mp hwithheld
  have hlength := h.length_eq
  have hlengthP := hp.length_eq
  have hposP := List.length_pos_iff.mpr hp.key.ne_nil
  -- The word ends before the blank.
  obtain ⟨b, hb, hbc⟩ := List.mem_iff_getElem.mp hc
  have hend : n + kept.length + word.length ≤ m + b := by
    by_contra hin
    obtain ⟨d, hd, hvalue⟩ := h.valueChar (i := m + b) (by omega) (by omega)
    rw [h'.getElem?_kept hb, List.getElem?_eq_getElem hb, hbc] at hd
    cases hd
    rw [space_not_valueChar hspace] at hvalue
    cases hvalue
  rcases htakenP.apart matches_tokens htaken ((@found_iff _ _ ⟨kept, word⟩).mpr h) with hbefore | hafter
  · rcases htaken.apart matches_tokens htakenP ((@found_iff _ _ ⟨keptP, wordP⟩).mpr hp) with hsame | hafterP
    · obtain rfl : p = n := by omega
      obtain ⟨rfl, rfl, rfl⟩ := hp.unique h
      omega
    · omega
  · -- A match after the word would start in the key.
    obtain ⟨j, rfl⟩ := Nat.exists_eq_add_of_lt (show m < p by omega)
    have hdrop : Matched ((text.drop m).drop (j + 1)) keptP wordP afterP := by
      rw [List.drop_drop]
      exact hp
    have hkept := h'.kept_le hdrop (Nat.succ_pos j)
    omega

end Withheld

end SmartTest.Load
