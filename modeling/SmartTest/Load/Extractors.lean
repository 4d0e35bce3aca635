import SmartTest.Lib.JsonPath
import SmartTest.Load.Rendering

/-!
# Paths of extractors

`validate_extractors` splits a path at its dots, and `_extract_token` does so after it has put
a dot in place of the brackets of every index. So an index that does not stand right after a
key leaves an empty part behind, and what follows an index runs into its digits.
-/

open SmartTest.Lib SmartTest.Run

namespace SmartTest.Load

/-! ## Indices in a path -/

/-- `[digits]` stands at the start of a text. -/
def IndexAt (s : List Char) (digits : String) (rest : List Char) : Prop :=
  digits.toList ≠ [] ∧ (∀ c ∈ digits.toList, c.isDigit = true) ∧ s = '[' :: (digits.toList ++ ']' :: rest)

theorem matchIndex_iff {s : List Char} {digits : String} {rest : List Char} :
    matchIndex s = some (digits, rest) ↔ IndexAt s digits rest := by
  unfold IndexAt
  constructor
  · intro h
    unfold matchIndex at h
    split at h
    · next inner =>
      dsimp only at h
      split at h
      · next after hdrop =>
        split at h
        · cases h
        · next hsome =>
          obtain ⟨rfl, rfl⟩ := Prod.mk.inj (Option.some.inj h)
          rw [String.toList_ofList]
          refine ⟨hsome, fun c hc => List.mem_takeWhile_imp hc, ?_⟩
          rw [← hdrop, List.takeWhile_append_dropWhile]
      · cases h
    · cases h
  · rintro ⟨hsome, hdigits, rfl⟩
    have hclose : Char.isDigit ']' = false := by decide
    obtain ⟨htake, hdrop⟩ := takeWhile_append_stop rest hdigits hclose
    simp only [matchIndex, htake, hdrop, if_neg hsome, String.ofList_toList]

theorem found_matchIndex : Found matchIndex = IndexAt := by
  funext s digits rest
  exact propext matchIndex_iff

theorem tokens_index : Tokens IndexAt where
  unique h h' := by
    have heq := (matchIndex_iff.mpr h).symm.trans (matchIndex_iff.mpr h')
    exact Prod.mk.inj (Option.some.inj heq)
  taken {s digits rest} h := by
    refine ⟨'[' :: (digits.toList ++ [']']), List.cons_ne_nil _ _, ?_⟩
    simpa using h.2.2

theorem apart_index : Apart IndexAt := by
  rintro before after digits digits' rest rest' hbefore ⟨-, hdigits, heq⟩ ⟨-, -, rfl⟩
  obtain ⟨c, before, rfl⟩ := List.exists_cons_of_ne_nil hbefore
  obtain ⟨-, heq⟩ := List.cons.inj heq
  rcases List.append_eq_append_iff.mp heq with ⟨a, ha, htail⟩ | ⟨a, rfl, htail⟩
  · -- The second bracket would be a digit.
    cases a with
    | nil => simp at htail
    | cons d a =>
      obtain ⟨rfl, -⟩ := List.cons.inj htail
      exact absurd (hdigits '[' (by rw [ha]; simp)) (by decide)
  · cases a with
    | nil => simp at htail
    | cons d a => exact ⟨a, (List.cons.inj htail).2⟩

/-! ## What a path says -/

abbrev PathPiece := Piece Char String

/-- The runs between the dots and the indices of a path. -/
def separate : List PathPiece → List (List Char)
  | [] => [[]]
  | .plain c :: rest => if c = '.' then [] :: separate rest else (separate rest).modifyHead (c :: ·)
  | .token digits :: rest => [] :: digits.toList :: separate rest

/-- The steps of a path: its keys and its indices. -/
def stepsOf (pieces : List PathPiece) : List (List Char) := (separate pieces).filter (· ≠ [])

/-- A step is a field of an object, or an item of an array if it is a number. -/
inductive Reads (web : Web) : List Char → Step → Prop where
  | field (text : List Char) : Reads web text (.field (.ofList text))
  | item {text : List Char} {i : Nat} (h : web.index (.ofList text) = some i) : Reads web text (.item i)

/-- Every step exists, and `found` is where they lead. -/
def Reaches (web : Web) (payload : Json) (steps : List (List Char)) (found : Json) : Prop :=
  ∃ path, List.Forall₂ (Reads web) steps path ∧ payload.at? path = some found

section Follow

variable {web : Web}

theorem follow_eq_some_iff {value found : Json} {text : List Char} :
    follow web value (.ofList text) = some found ↔ ∃ step, Reads web text step ∧ value.child? step = some found := by
  unfold follow
  cases value with
  | obj fields =>
    constructor
    · exact fun h => ⟨_, .field text, h⟩
    · rintro ⟨step, hstep, h⟩
      cases hstep with
      | field => exact h
      | item _ => cases h
  | arr items =>
    simp only [Option.bind_eq_some_iff]
    constructor
    · rintro ⟨i, hi, h⟩
      exact ⟨_, .item hi, h⟩
    · rintro ⟨step, hstep, h⟩
      cases hstep with
      | field => cases h
      | item hi => exact ⟨_, hi, h⟩
  | _ =>
    constructor
    · intro h
      cases h
    · rintro ⟨step, hstep, h⟩
      cases hstep <;> cases h

theorem foldlM_follow_iff {payload found : Json} {steps : List (List Char)} :
    steps.foldlM (fun value part => follow web value (.ofList part)) payload = some found ↔
      Reaches web payload steps found := by
  unfold Reaches
  induction steps generalizing payload with
  | nil =>
    constructor
    · intro h
      exact ⟨[], .nil, h⟩
    · rintro ⟨path, hpath, h⟩
      cases hpath
      exact h
  | cons text rest ih =>
    rw [List.foldlM_cons]
    simp only [Option.bind_eq_bind, Option.bind_eq_some_iff, follow_eq_some_iff, ih]
    constructor
    · rintro ⟨mid, ⟨step, hstep, hmid⟩, path, hpath, hfound⟩
      refine ⟨step :: path, .cons hstep hpath, ?_⟩
      rw [Json.at?_cons, hmid, Option.bind_some, hfound]
    · rintro ⟨path, hpath, hfound⟩
      cases hpath with
      | cons hstep hpath =>
        rw [Json.at?_cons, Option.bind_eq_some_iff] at hfound
        obtain ⟨mid, hmid, hfound⟩ := hfound
        exact ⟨mid, ⟨_, hstep, hmid⟩, _, hpath, hfound⟩

/-- A value that has something at the end of these steps, and nothing else. -/
def payloadAlong (steps : List (List Char)) : Json := .along (steps.map fun text => .field (.ofList text))

/-- Only the steps themselves lead to its end. -/
theorem reaches_payloadAlong_iff {steps steps' : List (List Char)} :
    Reaches web (payloadAlong steps) steps' .null ↔ steps' = steps := by
  unfold Reaches payloadAlong
  constructor
  · rintro ⟨path, hpath, hfound⟩
    induction steps generalizing steps' path with
    | nil =>
      cases hpath with
      | nil => rfl
      | cons hstep _ => cases hstep <;> cases hfound
    | cons text rest ih =>
      cases hpath with
      | nil => cases hfound
      | @cons text' step steps' path hstep hpath =>
        rw [Json.at?_cons, Option.bind_eq_some_iff] at hfound
        obtain ⟨mid, hmid, hfound⟩ := hfound
        cases hstep with
        | item _ => cases hmid
        | field =>
          simp only [List.map_cons, Json.along, Json.child?, List.lookup_cons, List.lookup_nil] at hmid
          split at hmid
          · next hsame =>
            have htext : text' = text := by
              have := congrArg String.toList (beq_iff_eq.mp hsame)
              simpa using this
            obtain rfl := Option.some.inj hmid
            rw [htext, ih _ hpath hfound]
          · cases hmid
  · rintro rfl
    refine ⟨_, ?_, Json.at?_along _⟩
    induction steps' with
    | nil => exact .nil
    | cons text rest ih => exact .cons (.field text) ih

end Follow

/-! ## What the code makes of it -/

/-- The parts of a path with a dot in place of the brackets. -/
def joined : List PathPiece → List (List Char)
  | [] => [[]]
  | .plain c :: rest => if c = '.' then [] :: joined rest else (joined rest).modifyHead (c :: ·)
  | .token digits :: rest => [] :: (joined rest).modifyHead (digits.toList ++ ·)

theorem splitOn_written {s text : List Char} {pieces : List PathPiece} (hscan : Scan IndexAt s pieces)
    (hwritten : Written (fun digits written => written = '.' :: digits.toList) pieces text) :
    text.splitOn '.' = joined pieces := by
  induction hscan generalizing text with
  | nil =>
    cases hwritten
    rfl
  | plain _ _ ih =>
    cases hwritten with
    | plain hwritten =>
      rw [List.splitOn_cons_eq_if_modifyHead, ih hwritten]
      simp [joined]
  | token hat _ ih =>
    cases hwritten with
    | token hvalue hwritten =>
      subst hvalue
      have hdot : '.' ∉ String.toList _ := fun h => absurd (hat.2.1 _ h) (by decide)
      rw [List.cons_append, List.splitOn_cons_eq_if_modifyHead, splitOn_prepend hdot, ih hwritten]
      simp [joined]

theorem splitOn_normalizePath {path : List Char} {pieces : List PathPiece} (hscan : Scan IndexAt path pieces) :
    (normalizePath path).splitOn '.' = joined pieces := by
  have hfound : Scan (Found matchIndex) path pieces := found_matchIndex ▸ hscan
  have htokens : Tokens (Found matchIndex) := found_matchIndex ▸ tokens_index
  unfold normalizePath
  split
  · next text htext =>
    apply splitOn_written hscan
    refine written_congr ?_ ((substitute_ok_iff htokens hfound).mp htext)
    intro digits written h
    exact (Except.ok.inj h).symm
  · next e he =>
    obtain ⟨_, _, -, h⟩ := (substitute_error_iff htokens hfound).mp ⟨e, he⟩
    cases h

/-- The path is followed along the code's parts, unless one of them is empty. -/
theorem extractToken_iff {web : Web} {payload found : Json} {path : String} {pieces : List PathPiece}
    (hscan : Scan IndexAt path.toList pieces) :
    extractToken web payload (.str path) = some found ↔ [] ∉ joined pieces ∧ Reaches web payload (joined pieces) found := by
  have hany : (joined pieces).any (· = []) = true ↔ [] ∈ joined pieces := by simp
  simp only [extractToken, splitOn_normalizePath hscan]
  split
  · next h => simp [hany.mp h]
  · next h => rw [foldlM_follow_iff, and_iff_right (fun hmem => h (hany.mpr hmem))]

/-! ## Where they agree -/

/-- What stands before a place in a path: nothing of a key, a key, or an index. -/
inductive Place where
  | start | key | index

/-- Keys and indices, where every index is followed by the end, a dot or another index. -/
def Regular : Place → List PathPiece → Prop
  | .start, [] | .start, .token _ :: _ => False
  | .key, [] | .index, [] => True
  | .start, .plain c :: rest => c ≠ '.' ∧ Regular .key rest
  | .key, .plain c :: rest => if c = '.' then Regular .start rest else Regular .key rest
  | .index, .plain c :: rest => c = '.' ∧ Regular .start rest
  | .key, .token _ :: rest | .index, .token _ :: rest => Regular .index rest

theorem joined_ne_nil (pieces : List PathPiece) : joined pieces ≠ [] := by
  cases pieces with
  | nil => simp [joined]
  | cons piece rest =>
    cases piece with
    | token _ => simp [joined]
    | plain c =>
      unfold joined
      split
      · simp
      · simpa using joined_ne_nil rest

theorem separate_ne_nil (pieces : List PathPiece) : separate pieces ≠ [] := by
  cases pieces with
  | nil => simp [separate]
  | cons piece rest =>
    cases piece with
    | token _ => simp [separate]
    | plain c =>
      unfold separate
      split
      · simp
      · simpa using separate_ne_nil rest

/-- At every place the parts of the code are the steps exactly if the rest of the path is regular. -/
theorem joined_eq_iff {pieces : List PathPiece} (hdigits : ∀ digits, .token digits ∈ pieces → digits.toList ≠ []) :
    ([] ∉ joined pieces ∧ joined pieces = (separate pieces).filter (· ≠ []) ↔ Regular .start pieces) ∧
    (∀ k ≠ [], [] ∉ (joined pieces).modifyHead (k ++ ·) ∧
      (joined pieces).modifyHead (k ++ ·) = ((separate pieces).modifyHead (k ++ ·)).filter (· ≠ []) ↔
        Regular .key pieces) ∧
    ∀ d ≠ [], [] ∉ (joined pieces).modifyHead (d ++ ·) ∧
      (joined pieces).modifyHead (d ++ ·) = d :: (separate pieces).filter (· ≠ []) ↔ Regular .index pieces := by
  induction pieces with
  | nil =>
    refine ⟨by simp [joined, separate, Regular], ?_, ?_⟩
    · intro k hk
      simp [joined, separate, Regular, hk, Ne.symm hk]
    · intro d hd
      simp [joined, separate, Regular, Ne.symm hd]
  | cons piece rest ih =>
    obtain ⟨hstart, hkey, hindex⟩ := ih fun digits h => hdigits digits (List.mem_cons_of_mem _ h)
    cases piece with
    | plain c =>
      by_cases hc : c = '.'
      · subst hc
        refine ⟨by simp [joined, Regular], ?_, ?_⟩
        · intro k hk
          simp only [joined, separate, Regular, if_true, List.modifyHead_cons, List.append_nil, ← hstart]
          simp [hk, Ne.symm hk]
        · intro d hd
          simp only [joined, separate, Regular, if_true, List.modifyHead_cons, List.append_nil, ← hstart]
          simp [Ne.symm hd]
      · have hjoined : joined (.plain c :: rest) = (joined rest).modifyHead ([c] ++ ·) := by simp [joined, hc]
        have hseparate : separate (.plain c :: rest) = (separate rest).modifyHead ([c] ++ ·) := by simp [separate, hc]
        rw [hjoined, hseparate]
        refine ⟨?_, ?_, ?_⟩
        · rw [hkey [c] (List.cons_ne_nil _ _)]
          simp [Regular, hc]
        · intro k hk
          have hhead : ∀ l : List (List Char), (l.modifyHead ([c] ++ ·)).modifyHead (k ++ ·) =
              l.modifyHead ((k ++ [c]) ++ ·) := by
            intro l
            cases l <;> simp
          rw [hhead, hhead, hkey (k ++ [c]) (by simp)]
          simp [Regular, hc]
        · intro d hd
          obtain ⟨h, t, hrest⟩ := List.exists_cons_of_ne_nil (joined_ne_nil rest)
          simp [Regular, hc, hrest]
    | token e =>
      have he := hdigits e List.mem_cons_self
      refine ⟨by simp [joined, Regular], ?_, ?_⟩
      · intro k hk
        simp only [joined, separate, Regular, List.modifyHead_cons, List.append_nil, ← hindex e.toList he]
        simp [hk, Ne.symm hk, he]
      · intro d hd
        simp only [joined, separate, Regular, List.modifyHead_cons, List.append_nil, ← hindex e.toList he]
        simp [Ne.symm hd, he]

/-- Some payload has a value at the path, and for every payload the code finds what the steps of the path lead to. -/
def Usable (web : Web) (path : String) : Prop :=
  (∃ payload found, extractToken web payload (.str path) = some found) ∧
  ∀ pieces, Scan IndexAt path.toList pieces → ∀ payload found,
    extractToken web payload (.str path) = some found ↔ Reaches web payload (stepsOf pieces) found

theorem usable_iff_regular {web : Web} {path : String} {pieces : List PathPiece}
    (hscan : Scan IndexAt path.toList pieces) : Usable web path ↔ Regular .start pieces := by
  have hdigits : ∀ digits, .token digits ∈ pieces → digits.toList ≠ [] := by
    intro digits hmem
    obtain ⟨_, _, _, -, hat⟩ := hscan.starts_of_mem tokens_index hmem
    exact hat.1
  rw [← (joined_eq_iff hdigits).1]
  constructor
  · rintro ⟨⟨payload, found, hfound⟩, hall⟩
    have hsome := ((extractToken_iff hscan).mp hfound).1
    refine ⟨hsome, ?_⟩
    -- The payload made for the parts of the code tells the steps apart from them.
    have hparts : extractToken web (payloadAlong (joined pieces)) (.str path) = some .null :=
      (extractToken_iff hscan).mpr ⟨hsome, reaches_payloadAlong_iff.mpr rfl⟩
    exact (reaches_payloadAlong_iff.mp ((hall pieces hscan _ _).mp hparts)).symm
  · rintro ⟨hsome, heq⟩
    refine ⟨⟨payloadAlong (joined pieces), .null, (extractToken_iff hscan).mpr
      ⟨hsome, reaches_payloadAlong_iff.mpr rfl⟩⟩, ?_⟩
    intro pieces' hscan' payload found
    obtain rfl := hscan.unique tokens_index hscan'
    rw [extractToken_iff hscan, and_iff_right hsome, stepsOf, ← heq]

/-! ## The condition on the text -/

/-- What `validate_extractors` asks of a path. -/
def acceptsPath (path : String) : Bool :=
  path.length ≤ 1024 && (path.toList.splitOn '.').all (· ≠ [])

/-- A key or an index ends here. -/
def EndsStep (before : List Char) : Prop := ∃ c, before.getLast? = some c ∧ c ≠ '.'

/-- The end, a dot or an index. -/
def StepEnds (rest : List Char) : Prop := rest = [] ∨ rest.head? = some '.' ∨ ∃ digits after, IndexAt rest digits after

/-- An index stands after a key or another index, and the end, a dot or another index follows it. -/
def PlacedAt (before rest : List Char) : Prop := EndsStep before ∧ StepEnds rest

def IndicesPlaced (path : List Char) : Prop :=
  ∀ before after digits rest, path = before ++ after → IndexAt after digits rest → PlacedAt before rest

/-- The indices of what follows `before` are placed. -/
def PlacedAfter (before s : List Char) : Prop :=
  ∀ b after digits rest, s = b ++ after → IndexAt after digits rest → PlacedAt (before ++ b) rest

theorem placedAfter_plain {before rest : List Char} {c : Char} (hno : ∀ digits after, ¬ IndexAt (c :: rest) digits after) :
    PlacedAfter before (c :: rest) ↔ PlacedAfter (before ++ [c]) rest := by
  unfold PlacedAfter
  constructor
  · intro h b after digits left heq hat
    have := h (c :: b) after digits left (by rw [heq]; rfl) hat
    simpa using this
  · intro h b after digits left heq hat
    cases b with
    | nil =>
      rw [List.nil_append] at heq
      exact absurd (heq ▸ hat) (hno digits left)
    | cons d b =>
      obtain ⟨rfl, rfl⟩ := List.cons.inj heq
      simpa using h b after digits left rfl hat

theorem placedAfter_token {before s rest : List Char} {digits : String} (hat : IndexAt s digits rest) :
    PlacedAfter before s ↔
      PlacedAt before rest ∧ PlacedAfter (before ++ '[' :: (digits.toList ++ [']'])) rest := by
  obtain ⟨hsome, hdigits, rfl⟩ := hat
  have hat : IndexAt ('[' :: (digits.toList ++ ']' :: rest)) digits rest := ⟨hsome, hdigits, rfl⟩
  unfold PlacedAfter
  constructor
  · intro h
    refine ⟨by simpa using h [] _ digits rest rfl hat, ?_⟩
    intro b after digits' left heq hat'
    have := h ('[' :: (digits.toList ++ ']' :: b)) after digits' left (by rw [heq]; simp) hat'
    simpa using this
  · rintro ⟨hplaced, h⟩ b after digits' left heq hat'
    by_cases hb : b = []
    · subst hb
      rw [List.nil_append] at heq
      rw [← heq] at hat'
      obtain ⟨-, rfl⟩ := tokens_index.unique hat hat'
      simpa using hplaced
    · obtain ⟨between, rfl⟩ := apart_index hb (heq ▸ hat) hat'
      have hb' : b = '[' :: (digits.toList ++ ']' :: between) := by
        apply @List.append_cancel_right _ _ after
        rw [← heq]
        simp
      subst hb'
      have := h between after digits' left rfl hat'
      simpa using this

theorem splitOn_cons_of_ne {c : Char} (hc : c ≠ '.') (rest : List Char) :
    (c :: rest).splitOn '.' = (rest.splitOn '.').modifyHead (c :: ·) := by
  have hne : (c == '.') = false := by simpa using hc
  rw [List.splitOn_cons_eq_if_modifyHead, hne, if_neg Bool.false_ne_true]

theorem splitOn_dot (rest : List Char) : ('.' :: rest).splitOn '.' = [] :: rest.splitOn '.' := by
  rw [List.splitOn_cons_eq_if_modifyHead, beq_self_eq_true, if_pos rfl]

/-- Characters before the first part leave the other parts as they are. -/
theorem nil_mem_modifyHead {k : List Char} (hk : k ≠ []) {l : List (List Char)} (hl : l ≠ []) :
    [] ∉ l.modifyHead (k ++ ·) ↔ [] ∉ l.tail := by
  obtain ⟨h, t, rfl⟩ := List.exists_cons_of_ne_nil hl
  simp [hk]

theorem tail_modifyHead (f : List Char → List Char) (l : List (List Char)) : (l.modifyHead f).tail = l.tail := by
  cases l <;> rfl

theorem placedAfter_nil (before : List Char) : PlacedAfter before [] := by
  intro b after digits rest heq hat
  obtain ⟨-, rfl⟩ := List.append_eq_nil_iff.mp heq.symm
  cases hat.2.2

theorem endsStep_concat {before : List Char} {c : Char} (hc : c ≠ '.') : EndsStep (before ++ [c]) :=
  ⟨c, List.getLast?_concat, hc⟩

/-- At every place the rest is regular exactly if it has no empty part and its indices are placed. -/
theorem regular_iff_placedAfter {s : List Char} {pieces : List PathPiece} (hscan : Scan IndexAt s pieces) :
    ∀ before,
      (¬ EndsStep before → (Regular .start pieces ↔ [] ∉ s.splitOn '.' ∧ PlacedAfter before s)) ∧
      (EndsStep before → (Regular .key pieces ↔ [] ∉ (s.splitOn '.').tail ∧ PlacedAfter before s)) ∧
      (EndsStep before →
        (Regular .index pieces ↔ [] ∉ (s.splitOn '.').tail ∧ PlacedAfter before s ∧ StepEnds s)) := by
  induction hscan with
  | nil =>
    intro before
    refine ⟨fun _ => by simp [Regular], fun _ => ?_, fun _ => ?_⟩
    · simp [Regular, placedAfter_nil]
    · simp [Regular, placedAfter_nil, StepEnds]
  | @plain c rest pieces hno _ ih =>
    intro before
    rw [placedAfter_plain hno]
    by_cases hc : c = '.'
    · subst hc
      have hopen : ¬ EndsStep (before ++ ['.']) := by
        rintro ⟨c, hlast, hc⟩
        rw [List.getLast?_concat] at hlast
        exact hc (Option.some.inj hlast).symm
      rw [splitOn_dot, List.tail_cons]
      refine ⟨fun _ => by simp [Regular], fun _ => ?_, fun _ => ?_⟩
      · simpa only [Regular, if_true] using (ih _).1 hopen
      · have hends : StepEnds ('.' :: rest) := .inr (.inl rfl)
        simpa only [Regular, true_and, hends, and_true] using (ih _).1 hopen
    · have hne := List.splitOn_ne_nil '.' rest
      have hkey := (ih (before ++ [c])).2.1 (endsStep_concat hc)
      rw [splitOn_cons_of_ne hc]
      refine ⟨fun _ => ?_, fun _ => ?_, fun _ => ?_⟩
      · have hparts := nil_mem_modifyHead (List.cons_ne_nil c []) hne
        simp only [List.cons_append, List.nil_append] at hparts
        rw [hparts, ← hkey]
        simp only [Regular, ne_eq, hc, not_false_eq_true, true_and]
      · rw [tail_modifyHead, ← hkey]
        simp only [Regular, if_neg hc]
      · have hends : ¬ StepEnds (c :: rest) := by
          rintro (h | h | ⟨digits, after, h⟩)
          · cases h
          · exact hc (Option.some.inj h)
          · exact hno digits after h
        simp only [Regular, hc, hends, false_and, and_false]
  | @token s rest digits pieces hat _ ih =>
    intro before
    have hclosed : EndsStep (before ++ '[' :: (digits.toList ++ [']'])) := by
      rw [← List.cons_append, ← List.append_assoc]
      exact endsStep_concat (by decide)
    have hindex := (ih _).2.2 hclosed
    have hsplit : s.splitOn '.' = (rest.splitOn '.').modifyHead (('[' :: (digits.toList ++ [']'])) ++ ·) := by
      have hdot : '.' ∉ '[' :: (digits.toList ++ [']']) := by
        intro h
        simp only [List.mem_cons, List.mem_append, List.not_mem_nil, or_false] at h
        rcases h with h | h | h
        · cases h
        · exact absurd (hat.2.1 _ h) (by decide)
        · cases h
      rw [← splitOn_prepend hdot, hat.2.2]
      simp
    rw [placedAfter_token hat, PlacedAt, hsplit]
    refine ⟨fun hopen => ?_, fun hbefore => ?_, fun hbefore => ?_⟩
    · simp only [Regular, hopen, false_and, and_false]
    · rw [tail_modifyHead]
      simp only [Regular, hindex, hbefore, true_and]
      tauto
    · have hends : StepEnds s := .inr (.inr ⟨digits, rest, hat⟩)
      rw [tail_modifyHead]
      simp only [Regular, hindex, hbefore, hends, true_and, and_true]
      tauto

/-- An accepted path is usable exactly if its indices are placed. -/
theorem extractToken_usable_iff (web : Web) (path : String) (haccepted : acceptsPath path = true) :
    Usable web path ↔ IndicesPlaced path.toList := by
  obtain ⟨pieces, hscan⟩ := Scan.exists_pieces tokens_index path.toList
  have hopen : ¬ EndsStep [] := by
    rintro ⟨c, h, -⟩
    cases h
  have hparts : [] ∉ path.toList.splitOn '.' := by
    unfold acceptsPath at haccepted
    simp only [Bool.and_eq_true, List.all_eq_true, decide_eq_true_eq] at haccepted
    exact fun h => haccepted.2 _ h rfl
  rw [usable_iff_regular hscan, (regular_iff_placedAfter hscan []).1 hopen, and_iff_right hparts]
  rfl

/-! ## Two paths -/

/-- `int` on ASCII digits. -/
def asciiWeb : Web where
  split _ := none
  join _ _ := none
  index text := readDigits 4300 text.toList
  allowed _ := true
  floatText _ := []

theorem bracket_path_unusable : acceptsPath "[0]" = true ∧ ¬ Usable asciiWeb "[0]" ∧
    extractToken asciiWeb (.arr [.int 7]) (.str "[0]") = none := by
  have hat : IndexAt "[0]".toList "0" [] := matchIndex_iff.mp rfl
  refine ⟨by decide, ?_, by decide⟩
  rintro ⟨⟨payload, found, h⟩, -⟩
  exact ((extractToken_iff (.token hat .nil)).mp h).1 (by decide)

theorem items_path_usable : acceptsPath "a[0].c" = true ∧ IndicesPlaced "a[0].c".toList ∧ Usable asciiWeb "a[0].c" := by
  have haccepted : acceptsPath "a[0].c" = true := by decide
  have hscan : Scan IndexAt "a[0].c".toList [.plain 'a', .token "0", .plain '.', .plain 'c'] := by
    have htokens : Tokens (Found matchIndex) := found_matchIndex ▸ tokens_index
    exact found_matchIndex ▸ scan_scans htokens "a[0].c".toList
  have husable : Usable asciiWeb "a[0].c" := by
    rw [usable_iff_regular hscan]
    simp [Regular]
  exact ⟨haccepted, (extractToken_usable_iff asciiWeb _ haccepted).mp husable, husable⟩

end SmartTest.Load
