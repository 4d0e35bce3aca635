import SmartTest.Load.Containment
import SmartTest.Load.Dynamic

/-!
# Dynamic values in a rendered target

A step of a scenario renders its variables first and then dynamic values, in the texts that
came out of the first rendering. So the text of a variable is looked through again.
-/

open SmartTest.Lib SmartTest.Run

namespace SmartTest.Load

/-- No `{{$...}}` stands in a text. -/
def NoDynamic (s : String) : Prop := ¬ HasToken (Found matchDynamic) s.toList

theorem noDynamic_of_not_mem {s : String} (h : '$' ∉ s.toList) : NoDynamic s := by
  rintro ⟨before, after, expression, rest, hs, hfound⟩
  apply h
  rw [hs, (matchDynamic_form hfound).1]
  simp

/-! ## One text -/

section Text

variable {floatText : Rat → List Char} {draws : DynamicDraws} {sequence : Nat}

/-- What the code writes for a dynamic token. -/
def DynamicText (floatText : Rat → List Char) (draws : DynamicDraws) (sequence : Nat) (expression : String)
    (text : List Char) : Prop :=
  ((generateDynamicValue draws expression sequence).map (stringifyTemplateValue floatText)) = .ok text

theorem not_brace_of_brought {expression : String} (huuid : '\x7b' ∉ draws.uuid.toList)
    (hexpression : '\x7b' ∉ expression.toList) : ¬ Brought draws expression '\x7b' := by
  rintro (h | h | h)
  · exact huuid h
  · exact hexpression h
  · exact absurd h (by decide)

/-- Every token that is written out takes its braces away. -/
theorem count_brace {s text : List Char} {pieces : List (Piece Char String)} (huuid : '\x7b' ∉ draws.uuid.toList)
    (hscan : Scan (Found matchDynamic) s pieces) (hwritten : Written (DynamicText floatText draws sequence) pieces text) :
    text.count '\x7b' ≤ s.count '\x7b' ∧
      ((∃ expression, .token expression ∈ pieces) → text.count '\x7b' < s.count '\x7b') := by
  induction hscan generalizing text with
  | nil =>
    cases hwritten
    simp
  | plain _ _ ih =>
    cases hwritten with
    | plain hwritten =>
      obtain ⟨hle, hlt⟩ := ih hwritten
      simp only [List.count_cons]
      refine ⟨by omega, ?_⟩
      rintro ⟨expression, hmem⟩
      have := hlt ⟨expression, by simpa using hmem⟩
      omega
  | token hfound _ ih =>
    cases hwritten with
    | token hvalue hwritten =>
      obtain ⟨hle, -⟩ := ih hwritten
      obtain ⟨rfl, hbraces⟩ := matchDynamic_form hfound
      obtain ⟨value, hgenerated, rfl⟩ := (map_eq_ok_iff _ _ _).mp hvalue
      have hnone : (stringifyTemplateValue floatText value).count '\x7b' = 0 := by
        rw [List.count_eq_zero]
        intro hmem
        exact not_brace_of_brought huuid (fun h => (hbraces _ h).1 rfl)
          ((generateDynamicValue_generated hgenerated).written floatText _ hmem)
      rw [List.count_append, hnone]
      simp only [List.count_cons, List.count_append]
      simp only [beq_self_eq_true, if_true]
      refine ⟨by omega, fun _ => by omega⟩

/-- A text stays as it is if no dynamic token stands in it, and only then. -/
theorem renderText_dynamic_self_iff (huuid : '\x7b' ∉ draws.uuid.toList) (s : String) :
    renderText matchDynamic (fun expression => generateDynamicValue draws expression sequence)
      (stringifyTemplateValue floatText) s = .ok (.str s) ↔ NoDynamic s := by
  unfold NoDynamic
  rcases renderText_cases matchDynamic s with ⟨expression, hmatch, heq⟩ | ⟨-, heq⟩
  · rw [heq]
    constructor
    · intro h
      -- The value would have the braces of the token.
      obtain ⟨hform, hbraces⟩ := matchDynamic_form hmatch
      exfalso
      rcases generateDynamicValue_generated h with ⟨n, hn⟩ | ⟨b, hb⟩ | ⟨text, htext, hbrought⟩
      · cases hn
      · cases hb
      · cases htext
        refine not_brace_of_brought huuid (fun h => (hbraces _ h).1 rfl) (hbrought _ ?_)
        rw [hform]
        exact List.mem_cons_self
    · exact fun hno => absurd ⟨[], _, expression, [], rfl, hmatch⟩ hno
  · obtain ⟨pieces, hscan⟩ := Scan.exists_pieces tokens_dynamic s.toList
    rw [heq, map_eq_ok_iff]
    constructor
    · rintro ⟨chars, hchars, hsame⟩
      have hchars' : chars = s.toList := by
        rw [← Json.str.inj hsame, String.toList_ofList]
      subst hchars'
      have hwritten := (substitute_ok_iff tokens_dynamic hscan).mp hchars
      obtain ⟨-, hlt⟩ := count_brace huuid hscan hwritten
      apply hscan.not_hasToken tokens_dynamic
      intro expression hmem
      exact absurd (hlt ⟨expression, hmem⟩) (lt_irrefl _)
    · intro hno
      obtain rfl := hscan.unique tokens_dynamic (Scan.of_not_hasToken hno)
      refine ⟨s.toList, (substitute_ok_iff tokens_dynamic hscan).mpr (written_plain _), ?_⟩
      rw [String.ofList_toList]

end Text

/-! ## A tree -/

section Tree

variable {R : String → Json → Prop} {P : String → Prop}

mutual

/-- What holds of all texts of a replaced tree, by the texts it was made from. -/
theorem Replaced.forall_texts (hunique : ∀ s out out', R s out → R s out' → out = out') : ∀ (value : Json) {out : Json},
    Replaced R value out →
    ((∀ t ∈ textsOf out, P t) ↔ ∀ s ∈ textsOf value, ∀ o, R s o → ∀ t ∈ textsOf o, P t)
  | .str s, out, h => by
    unfold Replaced at h
    simp only [textsOf, List.mem_singleton, forall_eq]
    constructor
    · intro hout o ho
      rw [hunique s o out ho h]
      exact hout
    · exact fun hall => hall out h
  | .arr items, out, h => by
    unfold Replaced at h
    obtain ⟨outs, rfl, h⟩ := h
    simp only [textsOf]
    exact ReplacedItems.forall_texts hunique items h
  | .obj fields, out, h => by
    unfold Replaced at h
    obtain ⟨outs, rfl, h⟩ := h
    simp only [textsOf]
    exact ReplacedFields.forall_texts hunique fields h
  | .null, out, h | .bool _, out, h | .int _, out, h | .float _, out, h => by
    unfold Replaced at h
    subst h
    simp [textsOf]

theorem ReplacedItems.forall_texts (hunique : ∀ s out out', R s out → R s out' → out = out') :
    ∀ (items : List Json) {outs : List Json}, ReplacedItems R items outs →
    ((∀ t ∈ textsOfItems outs, P t) ↔ ∀ s ∈ textsOfItems items, ∀ o, R s o → ∀ t ∈ textsOf o, P t)
  | [], outs, h => by
    unfold ReplacedItems at h
    subst h
    simp [textsOfItems]
  | item :: rest, outs, h => by
    unfold ReplacedItems at h
    obtain ⟨out, more, rfl, hout, hmore⟩ := h
    simp only [textsOfItems, List.forall_mem_append]
    exact and_congr (Replaced.forall_texts hunique item hout) (ReplacedItems.forall_texts hunique rest hmore)

theorem ReplacedFields.forall_texts (hunique : ∀ s out out', R s out → R s out' → out = out') :
    ∀ (fields : List (String × Json)) {outs : List (String × Json)}, ReplacedFields R fields outs →
    ((∀ t ∈ textsOfFields outs, P t) ↔ ∀ s ∈ textsOfFields fields, ∀ o, R s o → ∀ t ∈ textsOf o, P t)
  | [], outs, h => by
    unfold ReplacedFields at h
    subst h
    simp [textsOfFields]
  | (key, item) :: rest, outs, h => by
    unfold ReplacedFields at h
    obtain ⟨out, more, rfl, hout, hmore⟩ := h
    simp only [textsOfFields, List.forall_mem_append]
    exact and_congr (Replaced.forall_texts hunique item hout) (ReplacedFields.forall_texts hunique rest hmore)

end

end Tree

/-! ## A target -/

section Target

/-- The texts that the variables are written into. -/
def TargetDict.openTexts (target : TargetDict) : List String :=
  textsOf target.url ++ textsOfFields target.headers ++ textsOfFields target.query ++ textsOf target.body

/-- The texts that they are not written into. -/
def TargetDict.fixedTexts (target : TargetDict) : List String :=
  textsOf target.name ++ textsOf target.method ++ textsOfFields target.extractors

variable (floatText : Rat → List Char) (vars : Dict String Json)

/-- The variables bring no dynamic token into a text: the value that stands for the whole text has none in it, and
none stands in the text once those of the variables stand in it. -/
def KeepsStatic (s : String) : Prop :=
  (∀ name value, TemplateAt s.toList name [] → vars.get? name = some value → ∀ t ∈ textsOf value, NoDynamic t) ∧
  ((∀ name, ¬ TemplateAt s.toList name []) → ∀ pieces text, Scan TemplateAt s.toList pieces →
    Written (VariableText floatText vars) pieces text → NoDynamic (.ofList text))

variable {floatText : Rat → List Char} {vars : Dict String Json}

theorem keepsStatic_iff (s : String) :
    KeepsStatic floatText vars s ↔ ∀ out, RendersText floatText vars s out → ∀ t ∈ textsOf out, NoDynamic t := by
  unfold KeepsStatic RendersText
  constructor
  · rintro ⟨hwhole, hpart⟩ out (⟨name, hat, hget⟩ | ⟨hnot, pieces, text, hscan, hwritten, rfl⟩)
    · exact hwhole name out hat hget
    · simpa only [textsOf, List.mem_singleton, forall_eq] using hpart hnot pieces text hscan hwritten
  · intro h
    refine ⟨fun name value hat hget => h value (.inl ⟨name, hat, hget⟩), ?_⟩
    intro hnot pieces text hscan hwritten
    exact h _ (.inr ⟨hnot, pieces, text, hscan, hwritten, rfl⟩) _ (by simp [textsOf])

theorem rendersText_unique (s : String) (out out' : Json) (h : RendersText floatText vars s out)
    (h' : RendersText floatText vars s out') : out = out' :=
  Except.ok.inj (((renderText_ok_iff s out).mpr h).symm.trans ((renderText_ok_iff s out').mpr h'))

variable {web : Web} {draws : DynamicDraws} {sequence : Nat}

/-- A target without dynamic tokens goes through the second rendering as it is, and only such a target does. -/
theorem renderDynamicTarget_self_iff (huuid : '\x7b' ∉ draws.uuid.toList) (target : TargetDict) :
    renderDynamicTarget web target draws sequence = .ok target ↔
      (∀ s ∈ target.openTexts, NoDynamic s) ∧ ∀ s ∈ target.fixedTexts, NoDynamic s := by
  obtain ⟨name, method, url, headers, query, body, extractors⟩ := target
  simp only [TargetDict.openTexts, TargetDict.fixedTexts, List.forall_mem_append,
    ← renderJson_self_iff, ← renderFields_self_iff,
    ← @renderText_dynamic_self_iff web.floatText draws sequence huuid]
  simp only [renderDynamicTarget, bind_eq_ok_iff, pure_eq_ok_iff, TargetDict.mk.injEq]
  constructor
  · rintro ⟨_, hname, _, hmethod, _, hurl, _, hheaders, _, hquery, _, hbody, _, hextractors, rfl, rfl, rfl, rfl, rfl,
      rfl, rfl⟩
    exact ⟨⟨⟨⟨hurl, hheaders⟩, hquery⟩, hbody⟩, ⟨hname, hmethod⟩, hextractors⟩
  · rintro ⟨⟨⟨⟨hurl, hheaders⟩, hquery⟩, hbody⟩, ⟨hname, hmethod⟩, hextractors⟩
    exact ⟨name, hname, method, hmethod, url, hurl, headers, hheaders, query, hquery, body, hbody, extractors,
      hextractors, rfl, rfl, rfl, rfl, rfl, rfl, rfl⟩

theorem renderScenarioTarget_texts {P : String → Prop} {target rendered : TargetDict}
    (h : renderScenarioTarget web target vars = .ok rendered) :
    rendered.fixedTexts = target.fixedTexts ∧ ((∀ t ∈ rendered.openTexts, P t) ↔
      ∀ s ∈ target.openTexts, ∀ out, RendersText web.floatText vars s out → ∀ t ∈ textsOf out, P t) := by
  simp only [renderScenarioTarget, renderTexts, bind_eq_ok_iff, pure_eq_ok_iff] at h
  obtain ⟨url, hurl, headers, hheaders, query, hquery, body, hbody, rfl⟩ := h
  refine ⟨rfl, ?_⟩
  simp only [TargetDict.openTexts, List.forall_mem_append]
  refine and_congr (and_congr (and_congr ?_ ?_) ?_) ?_
  · exact Replaced.forall_texts rendersText_unique _ ((renderJson_ok_iff renderText_ok_iff _).mp hurl)
  · exact ReplacedFields.forall_texts rendersText_unique _ ((renderFields_ok_iff renderText_ok_iff _).mp hheaders)
  · exact ReplacedFields.forall_texts rendersText_unique _ ((renderFields_ok_iff renderText_ok_iff _).mp hquery)
  · exact Replaced.forall_texts rendersText_unique _ ((renderJson_ok_iff renderText_ok_iff _).mp hbody)

end Target

/-- A target without dynamic tokens of its own comes out of the second rendering as it went in exactly where no
variable brings such a token into one of its texts. -/
theorem renderDynamicTarget_unchanged_iff (web : Web) (target : LoadTestTarget) (vars : Dict String Json)
    (draws : DynamicDraws) (sequence : Nat) (rendered : TargetDict) (huuid : '\x7b' ∉ draws.uuid.toList)
    (hopen : ∀ s ∈ target.asDict.openTexts, NoDynamic s) (hfixed : ∀ s ∈ target.asDict.fixedTexts, NoDynamic s)
    (hrendered : renderScenarioTarget web target.asDict vars = .ok rendered) :
    renderDynamicTarget web rendered draws sequence = .ok rendered ↔
      ∀ s ∈ target.asDict.openTexts, KeepsStatic web.floatText vars s := by
  obtain ⟨hsame, htexts⟩ := renderScenarioTarget_texts (P := NoDynamic) hrendered
  rw [renderDynamicTarget_self_iff huuid, hsame, htexts, and_iff_left hfixed]
  exact forall₂_congr fun s _ => (keepsStatic_iff s).symm

/-! ## A variable in place of a URL -/

namespace Running

def nopeVars : Dict String Json := Dict.empty.set "id" (.str "\x7b\x7b$nope\x7d\x7d")

def pongVars : Dict String Json := Dict.empty.set "id" (.str "pong")

def uuidDraws : DynamicDraws := ⟨"6fa459ea-ee8a-4ca4-894e-db77e160355e", 0, 0, fun _ _ => 0⟩

def urlIs (url : String) : TargetDict := { numberTarget.asDict with url := .str url }

theorem numberTarget_static : (∀ s ∈ numberTarget.asDict.openTexts, NoDynamic s) ∧
    ∀ s ∈ numberTarget.asDict.fixedTexts, NoDynamic s := by
  have hopen : ∀ s ∈ numberTarget.asDict.openTexts, '$' ∉ s.toList := by decide
  have hfixed : ∀ s ∈ numberTarget.asDict.fixedTexts, '$' ∉ s.toList := by decide
  exact ⟨fun s hs => noDynamic_of_not_mem (hopen s hs), fun s hs => noDynamic_of_not_mem (hfixed s hs)⟩

theorem nope_interpreted : (∀ s ∈ numberTarget.asDict.openTexts, NoDynamic s) ∧
    (∀ s ∈ numberTarget.asDict.fixedTexts, NoDynamic s) ∧ '\x7b' ∉ uuidDraws.uuid.toList ∧
    ∃ rendered, renderScenarioTarget pingWeb numberTarget.asDict nopeVars = .ok rendered ∧
      renderDynamicTarget pingWeb rendered uuidDraws 1 = .error dynamicError :=
  ⟨numberTarget_static.1, numberTarget_static.2, by decide, _, rfl, rfl⟩

theorem pong_unchanged : renderScenarioTarget pingWeb numberTarget.asDict pongVars = .ok (urlIs "pong") ∧
    renderDynamicTarget pingWeb (urlIs "pong") uuidDraws 1 = .ok (urlIs "pong") := by
  refine ⟨rfl, (renderDynamicTarget_unchanged_iff pingWeb numberTarget pongVars uuidDraws 1 _ (by decide)
    numberTarget_static.1 numberTarget_static.2 rfl).mpr ?_⟩
  intro s hs
  have hat : TemplateAt s.toList "id" [] := by
    obtain rfl : s = "\x7b\x7bid\x7d\x7d" := by
      simpa [TargetDict.openTexts, LoadTestTarget.asDict, numberTarget, Execution.pingTarget, textsOf, textsOfFields,
        Dict.empty] using hs
    exact matchTemplate_iff.mp rfl
  refine ⟨?_, fun hnot => absurd hat (hnot "id")⟩
  intro name value hname hget t ht
  obtain rfl := (tokens_template.unique hat hname).1
  obtain rfl : value = .str "pong" := (Option.some.inj hget).symm
  obtain rfl : t = "pong" := by simpa [textsOf] using ht
  exact noDynamic_of_not_mem (by decide)

end Running

end SmartTest.Load
