import SmartTest.Load.Destination
import SmartTest.Load.Dynamic

/-!
# Headers of a request

In REQUESTS mode the headers are checked when a run starts and rendered for every request, so
what a dynamic value writes into a header is not checked again. Here a header value is the
text that `str` makes of it.
-/

open SmartTest.Lib SmartTest.Run

namespace SmartTest.Load

/-! ## Texts -/

section Texts

-- `repr` of a string, and how a float is spelled.
variable (quote : String → List Char) (floatText : Rat → List Char)

mutual

/-- `repr(value)`. -/
def reprOf : Json → List Char
  | .null => "None".toList
  | .bool b => if b then "True".toList else "False".toList
  | .int n => writeInt n
  | .float q => floatText q
  | .str s => quote s
  | .arr items => '[' :: (reprItems items ++ [']'])
  | .obj fields => '\x7b' :: (reprFields fields ++ ['\x7d'])

def reprItems : List Json → List Char
  | [] => []
  | [item] => reprOf item
  | item :: rest => reprOf item ++ ", ".toList ++ reprItems rest

def reprFields : List (String × Json) → List Char
  | [] => []
  | [(key, item)] => quote key ++ ": ".toList ++ reprOf item
  | (key, item) :: rest => quote key ++ ": ".toList ++ reprOf item ++ ", ".toList ++ reprFields rest

end

/-- `str(value)`. -/
def strOf : Json → String
  | .str s => s
  | value => .ofList (reprOf quote floatText value)

/-- `"\r" in value or "\n" in value`. -/
def hasLineBreak (value : String) : Bool := value.toList.any fun c => c = '\r' || c = '\n'

/-- `_HEADER_NAME.fullmatch(name)`. -/
def isHeaderName (name : String) : Bool := name.length ≥ 1 && name.toList.all isHeaderChar

/-- `_validated_headers`, with the texts that it returns. -/
def checkedHeaders : List (String × Json) → Except StepError (List (String × String))
  | [] => .ok []
  | (name, raw) :: rest => do
    let value := strOf quote floatText raw
    if !isHeaderName name || hasLineBreak value then .error (.valueError "HTTP request header is not allowed")
    else
      let headers ← checkedHeaders rest
      return (name, value) :: headers

/-- A dict of strings as one of any values. -/
def asJson (headers : List (String × String)) : List (String × Json) := headers.map fun h => (h.1, .str h.2)

/-- `_inject_auth`, for the headers, where there is a token. -/
def injectHeader (lower : String → String) (config : Option LoadTestAuthConfiguration) (token : Option String)
    (headers : List (String × String)) : Except StepError (List (String × String)) :=
  match config, token with
  | some config, some token => do
    let authPrefix := strip config.authPrefix
    let value := if authPrefix = "" then token else authPrefix ++ " " ++ token
    let auth ← checkedHeaders quote floatText [(config.authHeader, .str value)]
    return headers.filter (fun h => lower h.1 ≠ lower config.authHeader) ++ auth
  | _, _ => .ok headers

/-- What goes out: `str` of every value of the request. -/
def sentHeaders (request : Request) : List (String × String) :=
  request.headers.map fun h => (h.1, strOf quote floatText h.2)

end Texts

/-! ## Validation -/

section Validation

variable {quote : String → List Char} {floatText : Rat → List Char}

/-- Characters of one line. -/
def Line (l : List Char) : Prop := ∀ c ∈ l, c ≠ '\r' ∧ c ≠ '\n'

def OneLine (value : String) : Prop := Line value.toList

theorem line_append (l l' : List Char) : Line (l ++ l') ↔ Line l ∧ Line l' := List.forall_mem_append

theorem line_cons (c : Char) (l : List Char) : Line (c :: l) ↔ (c ≠ '\r' ∧ c ≠ '\n') ∧ Line l := List.forall_mem_cons

theorem oneLine_iff (value : String) : OneLine value ↔ hasLineBreak value = false := by
  unfold OneLine Line hasLineBreak
  simp [List.any_eq_false]

/-- A header that may be sent. -/
def Safe (header : String × String) : Prop := isHeaderName header.1 = true ∧ OneLine header.2

theorem checkedHeaders_ok {raw : List (String × Json)} {headers : List (String × String)}
    (h : checkedHeaders quote floatText raw = .ok headers) :
    headers = raw.map (fun h => (h.1, strOf quote floatText h.2)) ∧ ∀ header ∈ headers, Safe header := by
  induction raw generalizing headers with
  | nil =>
    obtain rfl := Except.ok.inj h
    exact ⟨rfl, by simp⟩
  | cons first rest ih =>
    obtain ⟨name, value⟩ := first
    unfold checkedHeaders at h
    dsimp only at h
    split at h
    · cases h
    · next hallowed =>
      simp only [bind_eq_ok_iff, pure_eq_ok_iff] at h
      obtain ⟨headers, hrest, rfl⟩ := h
      obtain ⟨rfl, hsafe⟩ := ih hrest
      simp only [Bool.or_eq_true, Bool.not_eq_true', not_or, Bool.not_eq_true, Bool.not_eq_false] at hallowed
      refine ⟨rfl, ?_⟩
      intro header hheader
      rcases List.mem_cons.mp hheader with rfl | hheader
      · exact ⟨hallowed.1, (oneLine_iff _).mpr hallowed.2⟩
      · exact hsafe header hheader

theorem checkedHeaders_of_safe {raw : List (String × Json)}
    (h : ∀ header ∈ raw, Safe (header.1, strOf quote floatText header.2)) :
    checkedHeaders quote floatText raw = .ok (raw.map fun h => (h.1, strOf quote floatText h.2)) := by
  induction raw with
  | nil => rfl
  | cons first rest ih =>
    obtain ⟨hname, hline⟩ := h first List.mem_cons_self
    rw [oneLine_iff] at hline
    simp only [checkedHeaders, hname, hline, ih fun header hheader => h header (List.mem_cons_of_mem _ hheader)]
    rfl

theorem comma_line : Line ", ".toList := forall_mem_of_all (by decide)

theorem colon_line : Line ": ".toList := forall_mem_of_all (by decide)

theorem injectHeader_safe {lower : String → String} {config : Option LoadTestAuthConfiguration} {token : Option String}
    {headers injected : List (String × String)} (hsafe : ∀ header ∈ headers, Safe header)
    (h : injectHeader quote floatText lower config token headers = .ok injected) : ∀ header ∈ injected, Safe header := by
  unfold injectHeader at h
  split at h
  · simp only [bind_eq_ok_iff, pure_eq_ok_iff] at h
    obtain ⟨auth, hauth, rfl⟩ := h
    intro header hheader
    rcases List.mem_append.mp hheader with hheader | hheader
    · exact hsafe header (List.mem_filter.mp hheader).1
    · exact (checkedHeaders_ok hauth).2 header hheader
  · obtain rfl := Except.ok.inj h
    exact hsafe

section Same

mutual

theorem reprOf_line (hquote : ∀ s, Line (quote s)) (hfloat : ∀ q, Line (floatText q)) : ∀ value : Json,
    Line (reprOf quote floatText value)
  | .null => by
    unfold reprOf
    exact forall_mem_of_all (by decide)
  | .bool b => by
    have hfalse : Line "False".toList := forall_mem_of_all (by decide)
    have htrue : Line "True".toList := forall_mem_of_all (by decide)
    unfold reprOf
    cases b
    · exact hfalse
    · exact htrue
  | .int n => by
    unfold reprOf
    intro c hc
    rcases mem_writeInt hc with rfl | hdigit
    · decide
    · constructor
      · rintro rfl
        exact absurd hdigit (by decide)
      · rintro rfl
        exact absurd hdigit (by decide)
  | .float q => by
    unfold reprOf
    exact hfloat q
  | .str s => by
    unfold reprOf
    exact hquote s
  | .arr items => by
    unfold reprOf
    rw [line_cons, line_append]
    exact ⟨by decide, reprItems_line hquote hfloat items, forall_mem_of_all (by decide)⟩
  | .obj fields => by
    unfold reprOf
    rw [line_cons, line_append]
    exact ⟨by decide, reprFields_line hquote hfloat fields, forall_mem_of_all (by decide)⟩

theorem reprItems_line (hquote : ∀ s, Line (quote s)) (hfloat : ∀ q, Line (floatText q)) : ∀ items : List Json,
    Line (reprItems quote floatText items)
  | [] => by
    unfold reprItems
    exact List.forall_mem_nil _
  | [item] => by
    unfold reprItems
    exact reprOf_line hquote hfloat item
  | item :: second :: rest => by
    unfold reprItems
    rw [line_append, line_append]
    exact ⟨⟨reprOf_line hquote hfloat item, comma_line⟩, reprItems_line hquote hfloat (second :: rest)⟩

theorem reprFields_line (hquote : ∀ s, Line (quote s)) (hfloat : ∀ q, Line (floatText q)) :
    ∀ fields : List (String × Json), Line (reprFields quote floatText fields)
  | [] => by
    unfold reprFields
    exact List.forall_mem_nil _
  | [(key, item)] => by
    unfold reprFields
    rw [line_append, line_append]
    exact ⟨⟨hquote key, colon_line⟩, reprOf_line hquote hfloat item⟩
  | (key, item) :: second :: rest => by
    unfold reprFields
    rw [line_append, line_append, line_append, line_append]
    exact ⟨⟨⟨⟨hquote key, colon_line⟩, reprOf_line hquote hfloat item⟩, comma_line⟩,
      reprFields_line hquote hfloat (second :: rest)⟩

end

/-- The check of a scenario, which asks the value itself, lets the same headers through. -/
theorem headerAllowed_iff (hquote : ∀ s, Line (quote s)) (hfloat : ∀ q, Line (floatText q)) (header : String × Json) :
    headerAllowed header = true ↔ Safe (header.1, strOf quote floatText header.2) := by
  have hbreaks : breaksLine header.2 = hasLineBreak (strOf quote floatText header.2) := by
    obtain ⟨name, value⟩ := header
    cases value with
    | str s => rfl
    | _ =>
      refine Eq.symm ((oneLine_iff _).mp ?_)
      unfold OneLine strOf
      rw [String.toList_ofList]
      exact reprOf_line hquote hfloat _
  unfold headerAllowed Safe isHeaderName
  rw [hbreaks, oneLine_iff, Bool.and_eq_true, Bool.not_eq_true']

theorem checkedHeaders_iff (hquote : ∀ s, Line (quote s)) (hfloat : ∀ q, Line (floatText q))
    (raw : List (String × Json)) :
    (∃ headers, checkedHeaders quote floatText raw = .ok headers) ↔ validatedHeaders raw = .ok raw := by
  have hall : validatedHeaders raw = .ok raw ↔ ∀ header ∈ raw, headerAllowed header = true := by
    unfold validatedHeaders
    rw [← List.all_eq_true]
    split
    · next h => simp [h]
    · next h => simp [h]
  simp only [hall, headerAllowed_iff hquote hfloat]
  constructor
  · rintro ⟨headers, h⟩ header hheader
    obtain ⟨rfl, hsafe⟩ := checkedHeaders_ok h
    exact hsafe _ (List.mem_map.mpr ⟨header, hheader, rfl⟩)
  · intro hsafe
    exact ⟨_, checkedHeaders_of_safe hsafe⟩

end Same

end Validation

/-! ## Rendering -/

section Rendering

variable {quote : String → List Char} {floatText : Rat → List Char} {draws : DynamicDraws} {sequence : Nat}
  {P : Char → Prop}

/-- The characters of a dynamic value, as `str` writes it. -/
theorem Generated.strOf {expression : String} {value : Json} (h : Generated draws expression value) :
    ∀ c ∈ (strOf quote floatText value).toList, Brought draws expression c := by
  intro c hc
  rcases h with ⟨n, rfl⟩ | ⟨b, rfl⟩ | ⟨s, rfl, hs⟩
  · simp only [Load.strOf, reprOf, String.toList_ofList] at hc
    rcases mem_writeInt hc with rfl | hdigit
    · exact .inr (.inr (by decide))
    · refine .inr (.inr ?_)
      simp [isPlainChar, Char.isAlphanum, hdigit]
  · have hfalse : ∀ c ∈ "False".toList, isPlainChar c = true := forall_mem_of_all (by decide)
    have htrue : ∀ c ∈ "True".toList, isPlainChar c = true := forall_mem_of_all (by decide)
    simp only [Load.strOf, reprOf, String.toList_ofList] at hc
    cases b
    · exact .inr (.inr (hfalse c hc))
    · exact .inr (.inr (htrue c hc))
  · exact hs c hc

/-- The characters of a text in which every token has been written out. -/
theorem written_dynamic_chars (hplain : ∀ c, isPlainChar c = true → P c) (huuid : ∀ c ∈ draws.uuid.toList, P c)
    {s text : List Char} {pieces : List (Piece Char String)} (hs : ∀ c ∈ s, P c)
    (hscan : Scan (Found matchDynamic) s pieces)
    (hwritten : Written (fun expression text =>
      (generateDynamicValue draws expression sequence).map (stringifyTemplateValue floatText) = .ok text) pieces text) :
    ∀ c ∈ text, P c := by
  induction hscan generalizing text with
  | nil =>
    cases hwritten
    simp
  | plain _ _ ih =>
    cases hwritten with
    | plain hwritten =>
      intro c hc
      rcases List.mem_cons.mp hc with rfl | hc
      · exact hs _ List.mem_cons_self
      · exact ih (fun c hc => hs c (List.mem_cons_of_mem _ hc)) hwritten c hc
  | token hfound _ ih =>
    cases hwritten with
    | token hvalue hwritten =>
      obtain ⟨rfl, -⟩ := matchDynamic_form hfound
      obtain ⟨value, hgenerated, rfl⟩ := (map_eq_ok_iff _ _ _).mp hvalue
      intro c hc
      rcases List.mem_append.mp hc with hc | hc
      · rcases (generateDynamicValue_generated hgenerated).written floatText c hc with h | h | h
        · exact huuid c h
        · exact hs c (by simp [h])
        · exact hplain c h
      · exact ih (fun c hc => hs c (by simp [hc])) hwritten c hc

/-- Rendering brings plain characters and those of a UUID into a text, and no others. -/
theorem renderText_dynamic_chars (hplain : ∀ c, isPlainChar c = true → P c) (huuid : ∀ c ∈ draws.uuid.toList, P c)
    {s : String} {out : Json} (hs : ∀ c ∈ s.toList, P c)
    (h : renderText matchDynamic (fun expression => generateDynamicValue draws expression sequence)
      (stringifyTemplateValue floatText) s = .ok out) : ∀ c ∈ (strOf quote floatText out).toList, P c := by
  rcases renderText_cases matchDynamic s with ⟨expression, hmatch, heq⟩ | ⟨-, heq⟩
  · rw [heq] at h
    obtain ⟨hform, -⟩ := matchDynamic_form hmatch
    intro c hc
    rcases (generateDynamicValue_generated h).strOf c hc with hc | hc | hc
    · exact huuid c hc
    · exact hs c (by rw [hform]; simp [hc])
    · exact hplain c hc
  · rw [heq, map_eq_ok_iff] at h
    obtain ⟨chars, hchars, rfl⟩ := h
    obtain ⟨pieces, hscan⟩ := Scan.exists_pieces tokens_dynamic s.toList
    rw [substitute_ok_iff tokens_dynamic hscan] at hchars
    simpa only [strOf, String.toList_ofList] using written_dynamic_chars hplain huuid hs hscan hchars

theorem not_lineBreak_of_isPlainChar (c : Char) (h : isPlainChar c = true) : c ≠ '\r' ∧ c ≠ '\n' := by
  constructor
  · rintro rfl
    exact absurd h (by decide)
  · rintro rfl
    exact absurd h (by decide)

/-- Rendering keeps the names, and every value on one line. -/
theorem renderFields_dynamic_safe (huuid : OneLine draws.uuid) {headers : List (String × String)}
    {rendered : List (String × Json)} (hsafe : ∀ header ∈ headers, Safe header)
    (h : renderFields (renderText matchDynamic (fun expression => generateDynamicValue draws expression sequence)
      (stringifyTemplateValue floatText)) (asJson headers) = .ok rendered) :
    rendered.map Prod.fst = headers.map Prod.fst ∧ ∀ header ∈ rendered, Safe (header.1, strOf quote floatText header.2) := by
  induction headers generalizing rendered with
  | nil =>
    obtain rfl := Except.ok.inj h
    exact ⟨rfl, by simp⟩
  | cons first rest ih =>
    simp only [asJson, List.map_cons, renderFields, renderJson, bind_eq_ok_iff, pure_eq_ok_iff] at h
    obtain ⟨value, hvalue, more, hmore, rfl⟩ := h
    obtain ⟨hnames, hrest⟩ := ih (fun header hheader => hsafe header (List.mem_cons_of_mem _ hheader)) hmore
    obtain ⟨hname, hline⟩ := hsafe first List.mem_cons_self
    refine ⟨by rw [List.map_cons, List.map_cons, hnames], ?_⟩
    intro header hheader
    rcases List.mem_cons.mp hheader with rfl | hheader
    · exact ⟨hname, renderText_dynamic_chars not_lineBreak_of_isPlainChar huuid hline hvalue⟩
    · exact hrest header hheader

end Rendering

/-! ## The request -/

section Requests

variable {quote : String → List Char} {lib : Libraries}

/-- The headers of a request are those it was given, and at most two more. -/
theorem buildRequest_headers {parsed : Url} {method : Json} {headers query : List (String × Json)} {body : Json}
    {request : Request} (h : buildRequest lib parsed method headers query body = some request) :
    ∃ added, request.headers = headers ++ added ∧
      ∀ header ∈ added, header = ("Host", .str parsed.netloc) ∨ header = ("Content-Type", .str "application/json") := by
  simp only [buildRequest, Option.bind_eq_bind, Option.bind_eq_some_iff] at h
  obtain ⟨port, -, h⟩ := h
  obtain rfl := Option.some.inj h
  dsimp only
  split <;> split
  · exact ⟨[("Content-Type", .str "application/json")], rfl, by simp⟩
  · exact ⟨[], by simp, by simp⟩
  · exact ⟨[("Host", .str parsed.netloc), ("Content-Type", .str "application/json")], by simp, by simp⟩
  · exact ⟨[("Host", .str parsed.netloc)], rfl, by simp⟩

theorem host_safe {netloc : String} (h : OneLine netloc) : Safe ("Host", netloc) := by
  have hname : isHeaderName "Host" = true := by decide
  exact ⟨hname, h⟩

theorem contentType_safe : Safe ("Content-Type", "application/json") :=
  ⟨by decide, (oneLine_iff _).mpr (by decide)⟩

/-- A run validates its headers once and renders them for every request, and no request has a line break in a header
value, or another name than those validated. -/
theorem sent_headers_safe (quote : String → List Char) (lib : Libraries) (web : Web) (config : Option LoadTestAuthConfiguration) (token : Option String)
    (raw : List (String × Json)) (checked headers : List (String × String)) (target rendered : TargetDict)
    (draws : DynamicDraws) (sequence : Nat) (parsed : Url) (request : Request)
    (huuid : OneLine draws.uuid) (hnetloc : OneLine parsed.netloc)
    (hchecked : checkedHeaders quote web.floatText raw = .ok checked)
    (hinjected : injectHeader quote web.floatText lib.lower config token checked = .ok headers)
    (htarget : target.headers = asJson headers)
    (hrendered : renderDynamicTarget web target draws sequence = .ok rendered)
    (hrequest : buildRequest lib parsed rendered.method rendered.headers rendered.query rendered.body = some request) :
    (∀ header ∈ sentHeaders quote web.floatText request, isHeaderName header.1 = true ∧ OneLine header.2) ∧
    checked.map Prod.fst = raw.map Prod.fst ∧
    ∃ added, (sentHeaders quote web.floatText request).map Prod.fst = headers.map Prod.fst ++ added ∧
      ∀ name ∈ added, name = "Host" ∨ name = "Content-Type" := by
  obtain ⟨hraw, hsafe⟩ := checkedHeaders_ok hchecked
  simp only [renderDynamicTarget, bind_eq_ok_iff, pure_eq_ok_iff] at hrendered
  obtain ⟨_, -, _, -, _, -, after, hafter, _, -, _, -, _, -, rfl⟩ := hrendered
  rw [htarget] at hafter
  obtain ⟨hnames, hlines⟩ := renderFields_dynamic_safe huuid (injectHeader_safe hsafe hinjected) hafter
  obtain ⟨added, hheaders, hadded⟩ := buildRequest_headers hrequest
  refine ⟨?_, ?_, added.map Prod.fst, ?_, ?_⟩
  · intro header hheader
    unfold sentHeaders at hheader
    rw [hheaders] at hheader
    obtain ⟨given, hgiven, rfl⟩ := List.mem_map.mp hheader
    rcases List.mem_append.mp hgiven with hgiven | hgiven
    · exact hlines given hgiven
    · rcases hadded given hgiven with rfl | rfl
      · exact host_safe hnetloc
      · exact contentType_safe
  · rw [hraw, List.map_map]
    rfl
  · rw [← hnames, sentHeaders, hheaders, List.map_map, List.map_append]
    rfl
  · intro name hname
    obtain ⟨header, hheader, rfl⟩ := List.mem_map.mp hname
    rcases hadded header hheader with rfl | rfl
    · exact .inl rfl
    · exact .inr rfl

end Requests

/-! ## One request -/

def bearer : LoadTestAuthConfiguration := ⟨none, "Authorization", "Bearer "⟩

def traceTemplate : String := "\x7b\x7b$sequence\x7d\x7d-\x7b\x7b$randomChoice(a,b)\x7d\x7d"

/-- A header with a list in it, and one with two dynamic values. -/
def dynamicHeaders : List (String × Json) := [("X-Ids", .arr [.int 1, .null]), ("X-Trace", .str traceTemplate)]

def headerUrl : Url := ⟨"http", "example.com", "/ping", "", some "example.com", none, none, some none⟩

def headerLibraries : Libraries where
  split _ := some headerUrl
  join _ text := some text
  ipAddress _ := none
  lower text := .ofList (text.toList.map Char.toLower)
  urlencode _ := ""
  index _ := none
  floatText _ := []

def headerWeb : Web where
  split _ := none
  join _ _ := none
  index _ := none
  allowed _ := true
  floatText _ := []

def hexDraws : DynamicDraws := ⟨"6fa459ea-ee8a-4ca4-894e-db77e160355e", 0, 0, fun _ _ => 0⟩

/-- `repr` of the strings that need no escape. -/
def plainQuote (s : String) : List Char := '\x27' :: (s.toList ++ ['\x27'])

def headerTarget (headers : List (String × Json)) : TargetDict :=
  ⟨.str "ping", .str "GET", .str "http://example.com/ping", headers, [], .null, []⟩

def checkedTrace : List (String × String) := [("X-Ids", "[1, None]"), ("X-Trace", traceTemplate)]

def injectedTrace : List (String × String) := checkedTrace ++ [("Authorization", "Bearer t")]

def renderedTrace : List (String × Json) :=
  [("X-Ids", .str "[1, None]"), ("X-Trace", .str "4-a"), ("Authorization", .str "Bearer t")]

theorem trace_header_sent : ∃ request,
    sentHeaders plainQuote headerWeb.floatText request = [("X-Ids", "[1, None]"), ("X-Trace", "4-a"),
      ("Authorization", "Bearer t"), ("Host", "example.com")] ∧
    ∀ header ∈ sentHeaders plainQuote headerWeb.floatText request, isHeaderName header.1 = true ∧ OneLine header.2 := by
  have huuid : OneLine hexDraws.uuid := (oneLine_iff _).mpr (by decide)
  have hnetloc : OneLine headerUrl.netloc := (oneLine_iff _).mpr (by decide)
  have hsent := sent_headers_safe plainQuote headerLibraries headerWeb (some bearer) (some "t") dynamicHeaders checkedTrace
    injectedTrace (headerTarget (asJson injectedTrace)) (headerTarget renderedTrace) hexDraws 4 headerUrl _ huuid hnetloc
    rfl rfl rfl rfl rfl
  exact ⟨_, rfl, hsent.1⟩

end SmartTest.Load
