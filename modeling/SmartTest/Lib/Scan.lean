import Mathlib.Data.List.Basic

/-!
# Scanning a text for tokens

What a text is made of for a program that replaces every token in it: from the left, a token
wherever one starts, and a plain character wherever none does. `starts s b rest` says that the
token `b` stands at the start of `s` and leaves `rest`.
-/

namespace SmartTest.Lib

variable {α β : Type}

inductive Piece (α β : Type) where
  | plain (c : α)
  | token (b : β)

/-- The pieces of a text. -/
inductive Scan (starts : List α → β → List α → Prop) : List α → List (Piece α β) → Prop where
  | nil : Scan starts [] []
  | plain {c : α} {rest : List α} {pieces : List (Piece α β)} (hno : ∀ b after, ¬ starts (c :: rest) b after)
      (h : Scan starts rest pieces) : Scan starts (c :: rest) (.plain c :: pieces)
  | token {s rest : List α} {b : β} {pieces : List (Piece α β)} (hstarts : starts s b rest)
      (h : Scan starts rest pieces) : Scan starts s (.token b :: pieces)

/-- At most one token starts at a place, and it is not empty. -/
structure Tokens (starts : List α → β → List α → Prop) : Prop where
  unique : ∀ {s b b' rest rest'}, starts s b rest → starts s b' rest' → b = b' ∧ rest = rest'
  taken : ∀ {s b rest}, starts s b rest → ∃ taken, taken ≠ [] ∧ s = taken ++ rest

theorem Tokens.ne_nil {starts : List α → β → List α → Prop} (ht : Tokens starts) {s rest : List α} {b : β}
    (h : starts s b rest) : s ≠ [] := by
  obtain ⟨taken, hne, rfl⟩ := ht.taken h
  simp [hne]

/-- Some token starts somewhere in the text. -/
def HasToken (starts : List α → β → List α → Prop) (s : List α) : Prop :=
  ∃ before after b rest, s = before ++ after ∧ starts after b rest

/-- No token starts inside another. -/
def Apart (starts : List α → β → List α → Prop) : Prop :=
  ∀ {before after b b' rest rest'}, before ≠ [] → starts (before ++ after) b rest → starts after b' rest' →
    ∃ between, rest = between ++ after

/-- The pieces of a text, one character after the other; `skip` characters are left of the last token. -/
def scan (token : List α → Option (β × List α)) : Nat → List α → List (Piece α β)
  | _, [] => []
  | skip + 1, _ :: rest => scan token skip rest
  | 0, c :: rest =>
    match token (c :: rest) with
    | some (b, after) => .token b :: scan token (rest.length - after.length) rest
    | none => .plain c :: scan token 0 rest

namespace Scan

variable {starts : List α → β → List α → Prop} {s rest : List α} {pieces pieces' : List (Piece α β)}

theorem unique (ht : Tokens starts) (h : Scan starts s pieces) (h' : Scan starts s pieces') : pieces = pieces' := by
  induction h generalizing pieces' with
  | nil =>
    cases h' with
    | nil => rfl
    | token hstarts _ => exact absurd rfl (ht.ne_nil hstarts)
  | plain hno _ ih =>
    cases h' with
    | plain _ h' => rw [ih h']
    | token hstarts _ => exact absurd hstarts (hno _ _)
  | token hstarts _ ih =>
    cases h' with
    | nil => exact absurd rfl (ht.ne_nil hstarts)
    | plain hno _ => exact absurd hstarts (hno _ _)
    | token hstarts' h' =>
      obtain ⟨rfl, rfl⟩ := ht.unique hstarts hstarts'
      rw [ih h']

/-- Every text has its pieces. -/
theorem exists_pieces (ht : Tokens starts) (s : List α) : ∃ pieces, Scan starts s pieces := by
  -- On the length of what is left: a token is not empty.
  induction hn : s.length using Nat.strongRecOn generalizing s with
  | _ n ih =>
    by_cases hsome : ∃ b rest, starts s b rest
    · obtain ⟨b, rest, hstarts⟩ := hsome
      obtain ⟨taken, hne, rfl⟩ := ht.taken hstarts
      have hpos := List.length_pos_iff.mpr hne
      rw [List.length_append] at hn
      obtain ⟨pieces, h⟩ := ih rest.length (by omega) rest rfl
      exact ⟨_, .token hstarts h⟩
    · cases s with
      | nil => exact ⟨[], .nil⟩
      | cons c rest =>
        rw [List.length_cons] at hn
        obtain ⟨pieces, h⟩ := ih rest.length (by omega) rest rfl
        exact ⟨_, .plain (fun b after hstarts => hsome ⟨b, after, hstarts⟩) h⟩

/-- Without a token there are plain characters only. -/
theorem of_not_hasToken (hno : ¬ HasToken starts s) : Scan starts s (s.map .plain) := by
  induction s with
  | nil => exact .nil
  | cons c rest ih =>
    refine .plain (fun b after hstarts => hno ⟨[], c :: rest, b, after, rfl, hstarts⟩) (ih ?_)
    rintro ⟨before, after, b, left, rfl, hstarts⟩
    exact hno ⟨c :: before, after, b, left, rfl, hstarts⟩

/-- In a text of plain characters no token starts. -/
theorem not_hasToken (ht : Tokens starts) (h : Scan starts s pieces) (hplain : ∀ b, .token b ∉ pieces) : ¬ HasToken starts s := by
  induction h with
  | nil =>
    rintro ⟨before, after, b, rest, heq, hstarts⟩
    exact ht.ne_nil hstarts (List.append_eq_nil_iff.mp heq.symm).2
  | plain hno _ ih =>
    rintro ⟨before, after, b, left, heq, hstarts⟩
    cases before with
    | nil =>
      rw [List.nil_append] at heq
      exact hno b left (heq ▸ hstarts)
    | cons c before =>
      refine ih ?_ ⟨before, after, b, left, (List.cons.inj heq).2, hstarts⟩
      intro b' hmem
      exact hplain b' (List.mem_cons_of_mem _ hmem)
  | token _ _ _ => exact absurd List.mem_cons_self (hplain _)

/-- A piece that is a token starts somewhere in the text. -/
theorem starts_of_mem (ht : Tokens starts) (h : Scan starts s pieces) {b : β} (hb : .token b ∈ pieces) :
    ∃ before after rest, s = before ++ after ∧ starts after b rest := by
  induction h with
  | nil => simp at hb
  | @plain c rest pieces hno _ ih =>
    have hmem : .token b ∈ pieces := by simpa using hb
    obtain ⟨before, after, left, rfl, hstarts⟩ := ih hmem
    exact ⟨c :: before, after, left, rfl, hstarts⟩
  | @token s rest b' pieces hfirst _ ih =>
    rcases List.mem_cons.mp hb with heq | hmem
    · cases heq
      exact ⟨[], s, rest, rfl, hfirst⟩
    · obtain ⟨before, after, left, rfl, hstarts⟩ := ih hmem
      obtain ⟨taken, -, rfl⟩ := ht.taken hfirst
      exact ⟨taken ++ before, after, left, by simp, hstarts⟩

end Scan

/-! ## Where tokens are taken -/

/-- The scan of a text takes a token at the offset. -/
inductive TakenAt (starts : List α → β → List α → Prop) : List α → Nat → Prop where
  | here {s rest : List α} {b : β} (h : starts s b rest) : TakenAt starts s 0
  | plain {c : α} {rest : List α} {n : Nat} (hno : ∀ b after, ¬ starts (c :: rest) b after)
      (h : TakenAt starts rest n) : TakenAt starts (c :: rest) (n + 1)
  | token {s taken rest : List α} {b : β} {n : Nat} (hs : s = taken ++ rest) (hstarts : starts s b rest)
      (h : TakenAt starts rest n) : TakenAt starts s (taken.length + n)

namespace TakenAt

variable {starts : List α → β → List α → Prop} {s rest : List α} {b : β} {n m : Nat}

/-- Where no token starts, the scan goes on with the next character. -/
theorem of_plain {c : α} (hno : ∀ b after, ¬ starts (c :: rest) b after) (h : TakenAt starts (c :: rest) n) :
    ∃ m, n = m + 1 ∧ TakenAt starts rest m := by
  cases h with
  | here h => exact absurd h (hno _ _)
  | plain _ h => exact ⟨_, rfl, h⟩
  | token _ hstarts _ => exact absurd hstarts (hno _ _)

/-- Where a token starts, the scan takes it and goes on after it. -/
theorem of_starts (ht : Tokens starts) {taken : List α} (hs : s = taken ++ rest) (hstarts : starts s b rest)
    (h : TakenAt starts s n) : n = 0 ∨ ∃ m, n = taken.length + m ∧ TakenAt starts rest m := by
  cases h with
  | here _ => exact .inl rfl
  | plain hno _ => exact absurd hstarts (hno _ _)
  | token hs' hstarts' h =>
    obtain ⟨-, rfl⟩ := ht.unique hstarts hstarts'
    rw [hs] at hs'
    rw [List.append_cancel_right hs']
    exact .inr ⟨_, rfl, h⟩

/-- A token that starts in a text is taken, or it starts inside one that is taken. -/
theorem or_within (ht : Tokens starts) (h : starts (s.drop n) b rest) :
    TakenAt starts s n ∨ ∃ m b' rest', m < n ∧ TakenAt starts s m ∧ starts (s.drop m) b' rest' ∧
      n + rest'.length < s.length := by
  obtain ⟨pieces, hscan⟩ := Scan.exists_pieces ht s
  induction hscan generalizing n with
  | nil =>
    rw [List.drop_nil] at h
    exact absurd rfl (ht.ne_nil h)
  | plain hno _ ih =>
    cases n with
    | zero => exact absurd h (hno _ _)
    | succ n =>
      rcases ih h with htaken | ⟨m, b', rest', hlt, htaken, hstarts, hin⟩
      · exact .inl (.plain hno htaken)
      · refine .inr ⟨m + 1, b', rest', by omega, .plain hno htaken, hstarts, ?_⟩
        rw [List.length_cons]
        omega
  | @token s left b' pieces hfirst _ ih =>
    obtain ⟨taken, hne, hs⟩ := ht.taken hfirst
    have hpos := List.length_pos_iff.mpr hne
    have hlength := congrArg List.length hs
    rw [List.length_append] at hlength
    by_cases hzero : n = 0
    · subst hzero
      exact .inl (.here h)
    · by_cases hin : n < taken.length
      · exact .inr ⟨0, b', left, by omega, .here hfirst, hfirst, by omega⟩
      · obtain ⟨k, rfl⟩ := Nat.exists_eq_add_of_le (Nat.not_lt.mp hin)
        have hdrop : ∀ j, s.drop (taken.length + j) = left.drop j := by
          intro j
          rw [hs, List.drop_length_add_append]
        rw [hdrop] at h
        rcases ih h with htaken | ⟨m, b'', rest', hlt, htaken, hstarts, hend⟩
        · exact .inl (.token hs hfirst htaken)
        · refine .inr ⟨taken.length + m, b'', rest', by omega, .token hs hfirst htaken, ?_, by omega⟩
          rw [hdrop]
          exact hstarts

/-- Of two tokens that are taken the later one starts after the other. -/
theorem apart (ht : Tokens starts) (h : TakenAt starts s n) (h' : TakenAt starts s m)
    (hstarts : starts (s.drop m) b rest) : n ≤ m ∨ s.length ≤ n + rest.length := by
  induction h generalizing m with
  | here _ => exact .inl (Nat.zero_le m)
  | plain hno _ ih =>
    obtain ⟨m, rfl, hrest⟩ := of_plain hno h'
    rcases ih hrest hstarts with hle | hafter
    · exact .inl (by omega)
    · rw [List.length_cons]
      exact .inr (by omega)
  | @token s taken left b' n hs hfirst _ ih =>
    have hlength := congrArg List.length hs
    rw [List.length_append] at hlength
    rcases of_starts ht hs hfirst h' with rfl | ⟨m, rfl, hleft⟩
    · obtain ⟨-, rfl⟩ := ht.unique hfirst hstarts
      exact .inr (by omega)
    · rw [hs, List.drop_length_add_append] at hstarts
      rcases ih hleft hstarts with hle | hafter
      · exact .inl (by omega)
      · exact .inr (by omega)

end TakenAt

/-! ## Scanning with a function -/

/-- What a function that looks for a token finds. -/
def Found (token : List α → Option (β × List α)) (s : List α) (b : β) (rest : List α) : Prop := token s = some (b, rest)

theorem eq_none_of_not_found {token : List α → Option (β × List α)} {s : List α} (h : ∀ b rest, ¬ Found token s b rest) :
    token s = none := by
  rw [Option.eq_none_iff_forall_ne_some]
  intro found hfound
  exact h found.1 found.2 hfound

theorem scan_drop (token : List α → Option (β × List α)) (skip : Nat) (s : List α) :
    scan token skip s = scan token 0 (s.drop skip) := by
  induction s generalizing skip with
  | nil => cases skip <;> rfl
  | cons c rest ih =>
    cases skip with
    | zero => rfl
    | succ skip => exact ih skip

theorem scan_scans {token : List α → Option (β × List α)} (ht : Tokens (Found token)) (s : List α) :
    Scan (Found token) s (scan token 0 s) := by
  induction hn : s.length using Nat.strongRecOn generalizing s with
  | _ n ih =>
    cases s with
    | nil => exact .nil
    | cons c rest =>
      rw [List.length_cons] at hn
      unfold scan
      cases htoken : token (c :: rest) with
      | none =>
        refine .plain ?_ (ih rest.length (by omega) rest rfl)
        intro b after hfound
        rw [Found, htoken] at hfound
        cases hfound
      | some found =>
        obtain ⟨b, after⟩ := found
        obtain ⟨taken, hne, heq⟩ := ht.taken htoken
        have hdrop : rest.drop (rest.length - after.length) = after := by
          cases taken with
          | nil => exact absurd rfl hne
          | cons c' taken =>
            rw [List.cons_append] at heq
            obtain ⟨-, rfl⟩ := List.cons.inj heq
            rw [List.length_append, Nat.add_sub_cancel, List.drop_left]
        have hlength : after.length < n := by
          have hle : after.length ≤ rest.length := by
            have := congrArg List.length hdrop
            rw [List.length_drop] at this
            omega
          omega
        refine .token htoken ?_
        rw [scan_drop, hdrop]
        exact ih after.length hlength after rfl

/-- What is known of a token may be forgotten before the scan or after it. -/
theorem scan_map {γ : Type} (f : β → γ) {token : List α → Option (β × List α)} (forget : Piece α β → Piece α γ)
    (hplain : ∀ c, forget (.plain c) = .plain c) (htoken : ∀ b, forget (.token b) = .token (f b)) (skip : Nat)
    (s : List α) : scan (fun s => (token s).map (Prod.map f id)) skip s = (scan token skip s).map forget := by
  induction s generalizing skip with
  | nil => cases skip <;> rfl
  | cons c rest ih =>
    cases skip with
    | succ skip => exact ih skip
    | zero =>
      unfold scan
      cases hfound : token (c :: rest) with
      | none =>
        simp only [Option.map_none, List.map_cons, hplain]
        rw [ih]
      | some found =>
        simp only [Option.map_some, List.map_cons, htoken, Prod.map_fst, Prod.map_snd, id_eq]
        rw [ih]

end SmartTest.Lib
