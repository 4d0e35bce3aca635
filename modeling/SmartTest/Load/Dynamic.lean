import SmartTest.Load.Rendering

/-!
# Dynamic values

The characters that a dynamic value can bring into a text: those of the expression itself,
those of a UUID, and letters, digits and four signs.
-/

open SmartTest.Lib SmartTest.Run

namespace SmartTest.Load

/-! ## Expressions -/

/-- A dynamic token is `{{$`, an expression without braces, and `}}`. -/
theorem matchDynamic_form {s : List Char} {expression : String} {rest : List Char}
    (h : matchDynamic s = some (expression, rest)) :
    s = '\x7b' :: '\x7b' :: (('$' :: expression.toList) ++ '\x7d' :: '\x7d' :: rest) ∧
      ∀ c ∈ expression.toList, c ≠ '\x7b' ∧ c ≠ '\x7d' := by
  have halnum : ∀ {l : List Char}, ∀ c ∈ l.takeWhile Char.isAlphanum, c ≠ '\x7b' ∧ c ≠ '\x7d' := by
    intro l c hc
    have hc := List.mem_takeWhile_imp hc
    constructor
    · rintro rfl
      exact absurd hc (by decide)
    · rintro rfl
      exact absurd hc (by decide)
  unfold matchDynamic at h
  split at h
  · next first more =>
    dsimp only at h
    split at h
    · split at h
      · next after hdrop =>
        obtain ⟨rfl, rfl⟩ := Prod.mk.inj (Option.some.inj h)
        rw [String.toList_ofList]
        refine ⟨?_, halnum⟩
        rw [List.cons_append, ← hdrop, List.takeWhile_append_dropWhile]
      · next inner hdrop =>
        split at h
        · next after hclose =>
          split at h
          · obtain ⟨rfl, rfl⟩ := Prod.mk.inj (Option.some.inj h)
            rw [String.toList_ofList]
            constructor
            · rw [List.cons_append, List.append_assoc, List.cons_append, ← hclose, List.takeWhile_append_dropWhile,
                ← hdrop, List.takeWhile_append_dropWhile]
            · intro c hc
              rcases List.mem_append.mp hc with hc | hc
              · exact halnum c hc
              · rcases List.mem_cons.mp hc with rfl | hc
                · decide
                · simpa using List.mem_takeWhile_imp hc
          · cases h
        · cases h
      · cases h
    · cases h
  · cases h

theorem tokens_dynamic : Tokens (Found matchDynamic) where
  unique h h' := Prod.mk.inj (Option.some.inj (h.symm.trans h'))
  taken {s expression rest} h := by
    refine ⟨'\x7b' :: '\x7b' :: (('$' :: expression.toList) ++ ['\x7d', '\x7d']), List.cons_ne_nil _ _, ?_⟩
    simpa using (matchDynamic_form h).1

/-! ## The characters of a value -/

/-- Letters, digits and four signs. -/
def isPlainChar (c : Char) : Bool := c.isAlphanum || c = '-' || c = '_' || c = '@' || c = '.'

/-- A character that an expression brings into its value. -/
def Brought (draws : DynamicDraws) (expression : String) (c : Char) : Prop :=
  c ∈ draws.uuid.toList ∨ c ∈ expression.toList ∨ isPlainChar c = true

theorem mem_of_mem_splitOn {l part : List Char} {separator c : Char} (hpart : part ∈ l.splitOn separator) (hc : c ∈ part) :
    c ∈ l := by
  induction l generalizing part with
  | nil =>
    simp only [List.splitOn_nil, List.mem_singleton] at hpart
    simp [hpart] at hc
  | cons x rest ih =>
    rw [List.splitOn_cons_eq_if_modifyHead] at hpart
    split at hpart
    · rcases List.mem_cons.mp hpart with rfl | hin
      · cases hc
      · exact List.mem_cons_of_mem _ (ih hin hc)
    · cases hsplit : rest.splitOn separator with
      | nil => simp [hsplit] at hpart
      | cons first others =>
        rw [hsplit, List.modifyHead_cons] at hpart
        rcases List.mem_cons.mp hpart with rfl | hin
        · rcases List.mem_cons.mp hc with rfl | hc
          · exact List.mem_cons_self
          · exact List.mem_cons_of_mem _ (ih (by simp [hsplit]) hc)
        · exact List.mem_cons_of_mem _ (ih (by simp [hsplit, hin]) hc)

theorem mem_of_mem_trim {l : List Char} {c : Char} (h : c ∈ trim l) : c ∈ l := by
  unfold trim strip at h
  simp only [String.toList_ofList, List.mem_reverse] at h
  have hdrop := (List.dropWhile_sublist isSpace).subset h
  rw [List.mem_reverse] at hdrop
  exact (List.dropWhile_sublist isSpace).subset hdrop

theorem mem_of_argumentOf {name expression : String} {argument : List Char} (h : argumentOf name expression = some argument)
    {c : Char} (hc : c ∈ argument) : c ∈ expression.toList := by
  unfold argumentOf at h
  dsimp only at h
  split at h
  · obtain rfl := Option.some.inj h
    exact List.drop_subset _ _ (List.dropLast_subset _ hc)
  · cases h

theorem text_plain {draws : DynamicDraws} {expression : String} {start length : Nat} {alphabet : List Char}
    (halphabet : ∀ c ∈ alphabet, isPlainChar c = true) :
    ∀ c ∈ draws.text expression start length alphabet, isPlainChar c = true := by
  intro c hc
  unfold DynamicDraws.text at hc
  obtain ⟨i, -, rfl⟩ := List.mem_map.mp hc
  rw [List.getD_eq_getElem?_getD]
  cases hget : alphabet[draws.below expression (start + i) alphabet.length]? with
  | none => decide
  | some c => exact halphabet c (List.mem_of_getElem? hget)

/-- What a dynamic value is: a number, a truth value, or a text of known characters. -/
def Generated (draws : DynamicDraws) (expression : String) (value : Json) : Prop :=
  (∃ n, value = .int n) ∨ (∃ b, value = .bool b) ∨ ∃ s, value = .str s ∧ ∀ c ∈ s.toList, Brought draws expression c

theorem randomInt_generated {draws : DynamicDraws} {expression : String} {value : Json}
    (h : randomInt draws expression = some (.ok value)) : Generated draws expression value := by
  simp only [randomInt, Option.bind_eq_bind, Option.bind_eq_some_iff] at h
  obtain ⟨argument, -, h⟩ := h
  split at h
  · simp only [Option.bind_eq_some_iff] at h
    obtain ⟨minimum, -, maximum, -, h⟩ := h
    split at h
    · cases h
    · exact .inl ⟨_, (Except.ok.inj (Option.some.inj h)).symm⟩
  · cases h

theorem randomSized_generated {draws : DynamicDraws} {expression name : String} {alphabet : List Char} {value : Json}
    (halphabet : ∀ c ∈ alphabet, isPlainChar c = true)
    (h : randomSized draws expression name alphabet = some (.ok value)) : Generated draws expression value := by
  simp only [randomSized, Option.bind_eq_bind, Option.bind_eq_some_iff] at h
  obtain ⟨argument, -, length, -, h⟩ := h
  split at h
  · refine .inr (.inr ⟨_, (Except.ok.inj (Option.some.inj h)).symm, ?_⟩)
    intro c hc
    rw [String.toList_ofList] at hc
    exact .inr (.inr (text_plain halphabet c hc))
  · cases h

theorem randomChoice_generated {draws : DynamicDraws} {expression : String} {value : Json}
    (h : randomChoice draws expression = some (.ok value)) : Generated draws expression value := by
  simp only [randomChoice, Option.bind_eq_bind, Option.bind_eq_some_iff] at h
  obtain ⟨argument, hargument, h⟩ := h
  split at h
  · cases h
  · split at h
    · cases h
    · refine .inr (.inr ⟨_, (Except.ok.inj (Option.some.inj h)).symm, ?_⟩)
      intro c hc
      rw [String.toList_ofList, List.getD_eq_getElem?_getD] at hc
      -- An option is a part of the argument without the blanks around it.
      cases hget : ((argument.splitOn ',').map trim)[draws.below expression 0 ((argument.splitOn ',').map trim).length]? with
      | none =>
        rw [hget] at hc
        cases hc
      | some option =>
        rw [hget, Option.getD_some] at hc
        obtain ⟨part, hpart, rfl⟩ := List.mem_map.mp (List.mem_of_getElem? hget)
        exact .inr (.inl (mem_of_argumentOf hargument (mem_of_mem_splitOn hpart (mem_of_mem_trim hc))))

theorem digits_plain : ∀ c ∈ DIGITS, isPlainChar c = true := forall_mem_of_all (by decide)

theorem lowercaseDigits_plain : ∀ c ∈ LOWERCASE ++ DIGITS, isPlainChar c = true := forall_mem_of_all (by decide)

theorem letters_plain : ∀ c ∈ LOWERCASE ++ UPPERCASE ++ DIGITS, isPlainChar c = true := forall_mem_of_all (by decide)

theorem generateDynamicValue_generated {draws : DynamicDraws} {expression : String} {sequence : Nat} {value : Json}
    (h : generateDynamicValue draws expression sequence = .ok value) : Generated draws expression value := by
  unfold generateDynamicValue at h
  split at h
  · obtain rfl := Except.ok.inj h
    exact .inr (.inr ⟨_, rfl, fun c hc => .inl hc⟩)
  iterate 3
    split at h
    · exact .inl ⟨_, (Except.ok.inj h).symm⟩
  split at h
  · exact .inr (.inl ⟨_, (Except.ok.inj h).symm⟩)
  split at h
  · refine .inr (.inr ⟨_, (Except.ok.inj h).symm, ?_⟩)
    intro c hc
    rw [String.toList_ofList] at hc
    rcases List.mem_cons.mp hc with rfl | hc
    · exact .inr (.inr (by decide))
    · rcases List.mem_append.mp hc with hc | hc
      · exact .inr (.inr (text_plain (forall_mem_of_all (by decide)) c hc))
      · exact .inr (.inr (text_plain digits_plain c hc))
  split at h
  · refine .inr (.inr ⟨_, (Except.ok.inj h).symm, ?_⟩)
    have hstart : ∀ c ∈ "test_".toList, isPlainChar c = true := forall_mem_of_all (by decide)
    have hend : ∀ c ∈ "@example.com".toList, isPlainChar c = true := forall_mem_of_all (by decide)
    intro c hc
    rw [String.toList_append, String.toList_append] at hc
    rcases List.mem_append.mp hc with hc | hc
    · rcases List.mem_append.mp hc with hc | hc
      · exact .inr (.inr (hstart c hc))
      · rw [String.toList_ofList] at hc
        exact .inr (.inr (text_plain lowercaseDigits_plain c hc))
    · exact .inr (.inr (hend c hc))
  cases hint : randomInt draws expression with
  | some result =>
    rw [hint] at h
    exact randomInt_generated (hint.trans (congrArg some h))
  | none =>
    cases htext : randomSized draws expression "randomString" (LOWERCASE ++ UPPERCASE ++ DIGITS) with
    | some result =>
      rw [hint, htext] at h
      exact randomSized_generated letters_plain (htext.trans (congrArg some h))
    | none =>
      cases hdigits : randomSized draws expression "randomDigits" DIGITS with
      | some result =>
        rw [hint, htext, hdigits] at h
        exact randomSized_generated digits_plain (hdigits.trans (congrArg some h))
      | none =>
        rw [hint, htext, hdigits] at h
        cases hchoice : randomChoice draws expression with
        | some result =>
          rw [hchoice] at h
          exact randomChoice_generated (hchoice.trans (congrArg some h))
        | none =>
          rw [hchoice] at h
          cases h

/-- Written out, a dynamic value has only such characters. -/
theorem Generated.written {draws : DynamicDraws} {expression : String} {value : Json}
    (h : Generated draws expression value) (floatText : Rat → List Char) :
    ∀ c ∈ stringifyTemplateValue floatText value, Brought draws expression c := by
  intro c hc
  rcases h with ⟨n, rfl⟩ | ⟨b, rfl⟩ | ⟨s, rfl, hs⟩
  · rcases mem_writeInt hc with rfl | hdigit
    · exact .inr (.inr (by decide))
    · refine .inr (.inr ?_)
      simp [isPlainChar, Char.isAlphanum, hdigit]
  · have hfalse : ∀ c ∈ ['f', 'a', 'l', 's', 'e'], isPlainChar c = true := forall_mem_of_all (by decide)
    have htrue : ∀ c ∈ ['t', 'r', 'u', 'e'], isPlainChar c = true := forall_mem_of_all (by decide)
    cases b
    · exact .inr (.inr (hfalse c hc))
    · exact .inr (.inr (htrue c hc))
  · exact hs c hc

end SmartTest.Load
