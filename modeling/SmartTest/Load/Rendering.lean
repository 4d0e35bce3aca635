import SmartTest.Lib.Scan
import SmartTest.Load.Perform

/-!
# What rendering does

What `render_templates` makes of a tree, said by the tokens that stand in its texts, and what
a second rendering for dynamic values makes of the result.
-/

open SmartTest.Lib SmartTest.Run

namespace SmartTest.Load

/-! ## Tokens -/

/-- `{{name}}` stands at the start of a text. -/
def TemplateAt (s : List Char) (name : String) (rest : List Char) : Prop :=
  isVariableName name = true ∧ s = '\x7b' :: '\x7b' :: (name.toList ++ '\x7d' :: '\x7d' :: rest)

theorem isNameChar_of_isVariableName {name : String} (h : isVariableName name = true) :
    ∀ c ∈ name.toList, isNameChar c = true := by
  unfold isVariableName isEnvironmentName at h
  split at h
  · cases h
  · next first rest heq =>
    simp only [Bool.and_eq_true, List.all_eq_true, decide_eq_true_eq] at h
    obtain ⟨⟨hfirst, hrest⟩, -⟩ := h
    intro c hc
    rw [heq] at hc
    rcases List.mem_cons.mp hc with rfl | hc
    · unfold isNameChar Char.isAlphanum
      simp only [Bool.or_eq_true] at hfirst ⊢
      tauto
    · exact hrest c hc

theorem matchTemplate_iff {s : List Char} {name : String} {rest : List Char} :
    matchTemplate s = some (name, rest) ↔ TemplateAt s name rest := by
  unfold TemplateAt
  constructor
  · intro h
    unfold matchTemplate at h
    split at h
    · next inner =>
      split at h
      · next after hdrop =>
        dsimp only at h
        split at h
        · next hname =>
          obtain ⟨rfl, rfl⟩ := Prod.mk.inj (Option.some.inj h)
          refine ⟨hname, ?_⟩
          rw [String.toList_ofList, ← hdrop, List.takeWhile_append_dropWhile]
        · cases h
      · cases h
    · cases h
  · rintro ⟨hname, rfl⟩
    have hstop : isNameChar '\x7d' = false := by decide
    obtain ⟨htake, hdrop⟩ := takeWhile_append_stop ('\x7d' :: rest) (isNameChar_of_isVariableName hname) hstop
    simp only [matchTemplate, htake, hdrop, String.ofList_toList, hname, if_true]

theorem tokens_template : Tokens TemplateAt where
  unique h h' := by
    have heq := (matchTemplate_iff.mpr h).symm.trans (matchTemplate_iff.mpr h')
    exact Prod.mk.inj (Option.some.inj heq)
  taken {s name rest} h := by
    refine ⟨'\x7b' :: '\x7b' :: (name.toList ++ ['\x7d', '\x7d']), List.cons_ne_nil _ _, ?_⟩
    simpa using h.2

section Replace

variable {β : Type}

/-- The pieces of a text, with every token written out. -/
inductive Written (value : β → List Char → Prop) : List (Piece Char β) → List Char → Prop where
  | nil : Written value [] []
  | plain {c : Char} {pieces : List (Piece Char β)} {text : List Char} (h : Written value pieces text) :
      Written value (.plain c :: pieces) (c :: text)
  | token {b : β} {pieces : List (Piece Char β)} {written text : List Char} (hb : value b written)
      (h : Written value pieces text) : Written value (.token b :: pieces) (written ++ text)

end Replace

section Tree

variable (R : String → Json → Prop)

mutual

/-- A tree with every text in it replaced as `R` says, and all else the same. -/
def Replaced : Json → Json → Prop
  | .str s, out => R s out
  | .arr items, out => ∃ outs, out = .arr outs ∧ ReplacedItems items outs
  | .obj fields, out => ∃ outs, out = .obj outs ∧ ReplacedFields fields outs
  | value, out => out = value

def ReplacedItems : List Json → List Json → Prop
  | [], outs => outs = []
  | item :: rest, outs => ∃ out more, outs = out :: more ∧ Replaced item out ∧ ReplacedItems rest more

def ReplacedFields : List (String × Json) → List (String × Json) → Prop
  | [], outs => outs = []
  | (key, item) :: rest, outs => ∃ out more, outs = (key, out) :: more ∧ Replaced item out ∧ ReplacedFields rest more

end

end Tree

section Templates

variable (floatText : Rat → List Char) (vars : Dict String Json)

/-- The text of a variable: a text as it is, any other value as compact JSON. -/
def VariableText (name : String) (text : List Char) : Prop :=
  ∃ value, vars.get? name = some value ∧ text = stringifyTemplateValue floatText value

/-- What a text becomes: the value of the variable, if the text is one token, and else the text with all its tokens
written out, from the left and in one pass. -/
def RendersText (s : String) (out : Json) : Prop :=
  (∃ name, TemplateAt s.toList name [] ∧ vars.get? name = some out) ∨
  (∀ name, ¬ TemplateAt s.toList name []) ∧
    ∃ pieces text, Scan TemplateAt s.toList pieces ∧ Written (VariableText floatText vars) pieces text ∧
      out = .str (.ofList text)

end Templates

/-! ## The code replaces the pieces -/

section Substitute

variable {token : List Char → Option (String × List Char)} {value : String → Except StepError (List Char)}
  {s : List Char} {pieces : List (Piece Char String)}

theorem substitute_drop (skip : Nat) (s : List Char) :
    substitute token value skip s = substitute token value 0 (s.drop skip) := by
  induction s generalizing skip with
  | nil => cases skip <;> rfl
  | cons c rest ih =>
    cases skip with
    | zero => rfl
    | succ skip => exact ih skip

theorem substitute_token (ht : Tokens (Found token)) {b : String} {rest : List Char} (h : token s = some (b, rest)) :
    substitute token value 0 s = do
      let text ← value b
      let tail ← substitute token value 0 rest
      return text ++ tail := by
  obtain ⟨taken, hne, rfl⟩ := ht.taken h
  obtain ⟨c, more, rfl⟩ := List.exists_cons_of_ne_nil hne
  rw [List.cons_append] at h ⊢
  have hskip : (more ++ rest).length - rest.length = more.length := by simp
  simp only [substitute, h, hskip]
  rw [substitute_drop more.length (more ++ rest), List.drop_left]

theorem substitute_ok_iff (ht : Tokens (Found token)) (h : Scan (Found token) s pieces) {text : List Char} :
    substitute token value 0 s = .ok text ↔ Written (fun b written => value b = .ok written) pieces text := by
  induction h generalizing text with
  | nil =>
    constructor
    · intro h
      cases h
      exact .nil
    · intro h
      cases h
      rfl
  | @plain c rest pieces hno _ ih =>
    rw [substitute_plain (eq_none_of_not_found hno)]
    constructor
    · intro h
      cases htail : substitute token value 0 rest with
      | error e =>
        rw [htail] at h
        cases h
      | ok tail =>
        rw [htail] at h
        cases h
        exact .plain (ih.mp htail)
    · intro h
      cases h with
      | plain h => rw [ih.mpr h]; rfl
  | @token s rest b pieces hfound _ ih =>
    rw [substitute_token ht hfound, bind_eq_ok_iff]
    constructor
    · rintro ⟨written, hwritten, h⟩
      rw [bind_eq_ok_iff] at h
      obtain ⟨tail, htail, h⟩ := h
      cases h
      exact .token hwritten (ih.mp htail)
    · intro h
      cases h with
      | token hwritten h => exact ⟨_, hwritten, by rw [ih.mpr h]; rfl⟩

theorem substitute_error_iff (ht : Tokens (Found token)) (h : Scan (Found token) s pieces) :
    (∃ e, substitute token value 0 s = .error e) ↔ ∃ b e, .token b ∈ pieces ∧ value b = .error e := by
  induction h with
  | nil => simp [substitute]
  | @plain c rest pieces hno _ ih =>
    rw [substitute_plain (eq_none_of_not_found hno)]
    simp only [map_eq_error_iff, ih, List.mem_cons, reduceCtorEq, false_or]
  | @token s rest b pieces hfound _ ih =>
    rw [substitute_token ht hfound]
    cases hvalue : value b with
    | error e => exact ⟨fun _ => ⟨b, e, List.mem_cons_self, hvalue⟩, fun _ => ⟨e, rfl⟩⟩
    | ok written =>
      rw [ok_bind]
      constructor
      · rintro ⟨e, he⟩
        rcases (bind_eq_error_iff _ _ _).mp he with he | ⟨tail, -, he⟩
        · obtain ⟨b', e', hmem, he'⟩ := ih.mp ⟨e, he⟩
          exact ⟨b', e', List.mem_cons_of_mem _ hmem, he'⟩
        · cases he
      · rintro ⟨b', e', hmem, he'⟩
        rcases List.mem_cons.mp hmem with heq | hmem
        · cases heq
          rw [hvalue] at he'
          cases he'
        · obtain ⟨e, he⟩ := ih.mpr ⟨b', e', hmem, he'⟩
          exact ⟨e, by rw [he]; rfl⟩

end Substitute

/-! ## The code goes through the tree -/

section Tree

variable {text : String → Except StepError Json} {R : String → Json → Prop}

mutual

theorem renderJson_ok_iff (htext : ∀ s out, text s = .ok out ↔ R s out) : ∀ (value : Json) {out : Json},
    renderJson text value = .ok out ↔ Replaced R value out
  | .str s, out => by simp only [renderJson, Replaced, htext]
  | .arr items, out => by
    simp only [renderJson, Replaced, map_eq_ok_iff, renderItems_ok_iff htext items]
    constructor
    · rintro ⟨outs, h, rfl⟩
      exact ⟨outs, rfl, h⟩
    · rintro ⟨outs, rfl, h⟩
      exact ⟨outs, h, rfl⟩
  | .obj fields, out => by
    simp only [renderJson, Replaced, map_eq_ok_iff, renderFields_ok_iff htext fields]
    constructor
    · rintro ⟨outs, h, rfl⟩
      exact ⟨outs, rfl, h⟩
    · rintro ⟨outs, rfl, h⟩
      exact ⟨outs, h, rfl⟩
  | .null, out | .bool _, out | .int _, out | .float _, out => by
    simp only [renderJson, Replaced, Except.ok.injEq, eq_comm]

theorem renderItems_ok_iff (htext : ∀ s out, text s = .ok out ↔ R s out) : ∀ (items : List Json) {outs : List Json},
    renderItems text items = .ok outs ↔ ReplacedItems R items outs
  | [], outs => by simp only [renderItems, ReplacedItems, Except.ok.injEq, eq_comm]
  | item :: rest, outs => by
    simp only [renderItems, ReplacedItems, bind_eq_ok_iff, renderJson_ok_iff htext item, renderItems_ok_iff htext rest,
      pure_eq_ok_iff]
    constructor
    · rintro ⟨out, hout, more, hmore, rfl⟩
      exact ⟨out, more, rfl, hout, hmore⟩
    · rintro ⟨out, more, rfl, hout, hmore⟩
      exact ⟨out, hout, more, hmore, rfl⟩

theorem renderFields_ok_iff (htext : ∀ s out, text s = .ok out ↔ R s out) :
    ∀ (fields : List (String × Json)) {outs : List (String × Json)},
      renderFields text fields = .ok outs ↔ ReplacedFields R fields outs
  | [], outs => by simp only [renderFields, ReplacedFields, Except.ok.injEq, eq_comm]
  | (key, item) :: rest, outs => by
    simp only [renderFields, ReplacedFields, bind_eq_ok_iff, renderJson_ok_iff htext item,
      renderFields_ok_iff htext rest, pure_eq_ok_iff]
    constructor
    · rintro ⟨out, hout, more, hmore, rfl⟩
      exact ⟨out, more, rfl, hout, hmore⟩
    · rintro ⟨out, more, rfl, hout, hmore⟩
      exact ⟨out, hout, more, hmore, rfl⟩

end

mutual

/-- Rendering a tree raises where rendering one of its texts does. -/
theorem renderJson_raises_iff : ∀ value : Json,
    (∃ e, renderJson text value = .error e) ↔ ∃ s ∈ textsOf value, ∃ e, text s = .error e
  | .str s => by simp only [renderJson, textsOf, List.mem_singleton, exists_eq_left]
  | .arr items => by
    simp only [renderJson, textsOf, map_eq_error_iff]
    exact renderItems_raises_iff items
  | .obj fields => by
    simp only [renderJson, textsOf, map_eq_error_iff]
    exact renderFields_raises_iff fields
  | .null | .bool _ | .int _ | .float _ => by simp [renderJson, textsOf]

theorem renderItems_raises_iff : ∀ items : List Json,
    (∃ e, renderItems text items = .error e) ↔ ∃ s ∈ textsOfItems items, ∃ e, text s = .error e
  | [] => by simp [renderItems, textsOfItems]
  | item :: rest => by
    simp only [renderItems, textsOfItems, List.mem_append, or_and_right, exists_or, ← renderJson_raises_iff item,
      ← renderItems_raises_iff rest]
    cases renderJson text item with
    | error e => simp [error_bind]
    | ok out => cases renderItems text rest <;> simp [ok_bind, error_bind, pure, Except.pure]

theorem renderFields_raises_iff : ∀ fields : List (String × Json),
    (∃ e, renderFields text fields = .error e) ↔ ∃ s ∈ textsOfFields fields, ∃ e, text s = .error e
  | [] => by simp [renderFields, textsOfFields]
  | (key, item) :: rest => by
    simp only [renderFields, textsOfFields, List.mem_append, or_and_right, exists_or, ← renderJson_raises_iff item,
      ← renderFields_raises_iff rest]
    cases renderJson text item with
    | error e => simp [error_bind]
    | ok out => cases renderFields text rest <;> simp [ok_bind, error_bind, pure, Except.pure]

end

mutual

/-- Where every text stays as it is, the tree does. -/
theorem renderJson_self_iff : ∀ value : Json,
    renderJson text value = .ok value ↔ ∀ s ∈ textsOf value, text s = .ok (.str s)
  | .str s => by simp only [renderJson, textsOf, List.mem_singleton, forall_eq]
  | .arr items => by
    simp only [renderJson, textsOf, map_eq_ok_iff, Json.arr.injEq, exists_eq_right]
    exact renderItems_self_iff items
  | .obj fields => by
    simp only [renderJson, textsOf, map_eq_ok_iff, Json.obj.injEq, exists_eq_right]
    exact renderFields_self_iff fields
  | .null | .bool _ | .int _ | .float _ => by simp [renderJson, textsOf]

theorem renderItems_self_iff : ∀ items : List Json,
    renderItems text items = .ok items ↔ ∀ s ∈ textsOfItems items, text s = .ok (.str s)
  | [] => by simp [renderItems, textsOfItems]
  | item :: rest => by
    simp only [renderItems, textsOfItems, List.forall_mem_append, ← renderJson_self_iff item,
      ← renderItems_self_iff rest, bind_eq_ok_iff, pure_eq_ok_iff, List.cons.injEq]
    constructor
    · rintro ⟨out, hout, outs, houts, rfl, rfl⟩
      exact ⟨hout, houts⟩
    · rintro ⟨hout, houts⟩
      exact ⟨item, hout, rest, houts, rfl, rfl⟩

theorem renderFields_self_iff : ∀ fields : List (String × Json),
    renderFields text fields = .ok fields ↔ ∀ s ∈ textsOfFields fields, text s = .ok (.str s)
  | [] => by simp [renderFields, textsOfFields]
  | (key, item) :: rest => by
    simp only [renderFields, textsOfFields, List.forall_mem_append, ← renderJson_self_iff item,
      ← renderFields_self_iff rest, bind_eq_ok_iff, pure_eq_ok_iff, List.cons.injEq, Prod.mk.injEq, true_and]
    constructor
    · rintro ⟨out, hout, outs, houts, rfl, rfl⟩
      exact ⟨hout, houts⟩
    · rintro ⟨hout, houts⟩
      exact ⟨item, hout, rest, houts, rfl, rfl⟩

end

end Tree

/-! ## Variables -/

theorem found_matchTemplate : Found matchTemplate = TemplateAt := by
  funext s name rest
  exact propext matchTemplate_iff

section Variables

variable {floatText : Rat → List Char} {vars : Dict String Json}

theorem templateValue_ok_iff {name : String} {out : Json} :
    templateValue vars name = .ok out ↔ vars.get? name = some out := by
  unfold templateValue
  cases vars.get? name <;> simp

/-- Whether a text is one token. -/
theorem renderText_cases (token : List Char → Option (String × List Char)) (s : String) :
    (∃ name, token s.toList = some (name, []) ∧ ∀ value stringify, renderText token value stringify s = value name) ∨
    (∀ name, token s.toList ≠ some (name, [])) ∧ ∀ value stringify, renderText token value stringify s =
      (substitute token (fun name => (value name).map stringify) 0 s.toList).map fun chars => .str (.ofList chars) := by
  have hbind : ∀ x : Except StepError (List Char), (do
      let chars ← x
      return Json.str (.ofList chars)) = x.map fun chars => .str (.ofList chars) := by
    intro x
    cases x <;> rfl
  unfold renderText
  cases token s.toList with
  | none => exact .inr ⟨fun name => by simp, fun value stringify => hbind _⟩
  | some found =>
    obtain ⟨name, rest⟩ := found
    cases rest with
    | nil => exact .inl ⟨name, rfl, fun value stringify => rfl⟩
    | cons c rest => exact .inr ⟨fun name => by simp, fun value stringify => hbind _⟩

theorem matchTemplate_whole (s : String) :
    (∃ name, TemplateAt s.toList name [] ∧ ∀ value stringify,
      renderText matchTemplate value stringify s = value name) ∨
    (∀ name, ¬ TemplateAt s.toList name []) ∧ ∀ value stringify, renderText matchTemplate value stringify s =
      (substitute matchTemplate (fun name => (value name).map stringify) 0 s.toList).map fun chars => .str (.ofList chars) := by
  simp only [← matchTemplate_iff]
  exact renderText_cases matchTemplate s

theorem tokens_found : Tokens (Found matchTemplate) := found_matchTemplate ▸ tokens_template

theorem written_congr {β : Type} {value value' : β → List Char → Prop} (h : ∀ b text, value b text → value' b text)
    {pieces : List (Piece Char β)} {text : List Char} (hw : Written value pieces text) : Written value' pieces text := by
  induction hw with
  | nil => exact .nil
  | plain _ ih => exact .plain ih
  | token hb _ ih => exact .token (h _ _ hb) ih

/-- The text of a variable is what the code writes for it. -/
theorem variableText_iff {name : String} {text : List Char} :
    (templateValue vars name).map (stringifyTemplateValue floatText) = .ok text ↔ VariableText floatText vars name text := by
  unfold VariableText
  simp only [map_eq_ok_iff, templateValue_ok_iff]
  constructor
  · rintro ⟨value, hget, rfl⟩
    exact ⟨value, hget, rfl⟩
  · rintro ⟨value, hget, rfl⟩
    exact ⟨value, hget, rfl⟩

theorem renderText_ok_iff (s : String) (out : Json) :
    renderText matchTemplate (templateValue vars) (stringifyTemplateValue floatText) s = .ok out ↔
      RendersText floatText vars s out := by
  unfold RendersText
  rcases matchTemplate_whole s with ⟨name, hat, heq⟩ | ⟨hnot, heq⟩
  · rw [heq, templateValue_ok_iff]
    constructor
    · exact fun hget => .inl ⟨name, hat, hget⟩
    · rintro (⟨name', hat', hget⟩ | ⟨hnot, -⟩)
      · rwa [(tokens_template.unique hat hat').1]
      · exact absurd hat (hnot name)
  · obtain ⟨pieces, hscan⟩ := Scan.exists_pieces tokens_template s.toList
    have hfound : Scan (Found matchTemplate) s.toList pieces := found_matchTemplate ▸ hscan
    rw [heq, map_eq_ok_iff]
    constructor
    · rintro ⟨chars, hchars, rfl⟩
      have hwritten := (substitute_ok_iff tokens_found hfound).mp hchars
      exact .inr ⟨hnot, pieces, chars, hscan, written_congr (fun _ _ => variableText_iff.mp) hwritten, rfl⟩
    · rintro (⟨name, hat, -⟩ | ⟨-, pieces', chars, hscan', hwritten, rfl⟩)
      · exact absurd hat (hnot name)
      · obtain rfl := hscan.unique tokens_template hscan'
        refine ⟨chars, (substitute_ok_iff tokens_found hfound).mpr ?_, rfl⟩
        exact written_congr (fun _ _ => variableText_iff.mpr) hwritten

/-- A text of plain characters is written out as it is. -/
theorem written_plain {β : Type} {value : β → List Char → Prop} (l : List Char) :
    Written value (l.map .plain) l := by
  induction l with
  | nil => exact .nil
  | cons c rest ih => exact .plain ih

end Variables

end SmartTest.Load
